import EspNowGateway.Foundations.PartialRun
import EspNowGateway.Radio.EspRadio

/-! The receive path as two tasks. The main task is inside or outside a `receivePacket` call;
the WiFi task is inside or outside the callback. Every interleaving of their steps and every
answer of ESP-NOW and the operating system is a run; `accepted`, `removed` and `returned`
record what the runs did to the queue. -/
namespace EspNowGateway.Radio
open ByteLayout QueueHeap RadioState

/-- Where the main task stands inside `receivePacket`. -/
inductive MainPc where
  | outside
  | starting
  | created
  | registered
  | waiting
  deriving DecidableEq, Repr

/-- Where the WiFi task stands inside `OnDataRecv`. -/
inductive CallbackPc (φ : Type) where
  | outside
  | copied (f : φ)
  | sending (radioQ : Option Handle) (f : φ)

structure Tasks (φ π : Type) where
  radio : RadioState φ
  main : MainPc
  callback : CallbackPc φ
  accepted : List φ
  removed : List φ
  returned : List π

abbrev ReceiveTasks (tw : Nat) := Tasks (Frame tw) (EspPacket tw)

inductive Action where
  | enter (o : InitOutcome)
  | create (ok : Bool)
  | register (ok : Bool)
  | setStarted
  | take
  | timeOut
  | arrive (incomingData : List Byte) (beyond : Nat → Byte)
  | readHandle
  | put
  | drop

namespace ReceiveTasks
variable {tw : Nat}

def boot (tw : Nat) : ReceiveTasks tw := ⟨RadioState.boot tw, .outside, .outside, [], [], []⟩

/-- `wasRadioInit = initRadio();` and the early returns behind it. -/
def enter (o : InitOutcome) (s : ReceiveTasks tw) : ReceiveTasks tw :=
  let radio := { s.radio with wasRadioInit := s.radio.initRadio o }
  { s with
    radio := radio
    main := if !radio.wasRadioInit then .outside
      else if radio.receiverWasStarted then .waiting else .starting }

/-- `xQueueReceive` found a frame; the protocol check decides what `receivePacket` returns. -/
def took (s : ReceiveTasks tw) (f : Frame tw) (radio : EspRadio tw) : ReceiveTasks tw :=
  { s with
    radio := radio
    main := .outside
    removed := s.removed ++ [f]
    returned := s.returned ++ (accept f).toList }

def step (s : ReceiveTasks tw) : Action → Option (ReceiveTasks tw)
  | .enter o => if s.main = .outside then some (s.enter o) else none
  | .create ok =>
    if s.main = .starting then some { s with radio := s.radio.createQueue ok, main := .created }
    else none
  | .register ok =>
    if s.main = .created then
      if ok then some { s with radio := s.radio.registerCb ok, main := .registered }
      else some { s with
        radio := { s.radio.registerCb ok with receiverWasStarted := false }
        main := .outside }
    else none
  | .setStarted =>
    if s.main = .registered then
      some { s with radio := { s.radio with receiverWasStarted := true }, main := .waiting }
    else none
  | .take =>
    if s.main = .waiting then
      match s.radio.queueReceive with
      | .ok (some f, radio) => some (s.took f radio)
      | _ => none
    else none
  | .timeOut =>
    if s.main = .waiting then
      match s.radio.queueReceive with
      | .ok (none, _) => some { s with main := .outside }
      | _ => none
    else none
  | .arrive incomingData beyond =>
    match s.radio.cbRegistered, s.callback with
    | true, .outside => some { s with callback := .copied (copyDatagram tw incomingData beyond) }
    | _, _ => none
  | .readHandle =>
    match s.callback with
    | .copied f => some { s with callback := .sending s.radio.radioQ f }
    | _ => none
  | .put =>
    match s.callback with
    | .sending (some h) f =>
      match send espNowQLen s.radio.heap h f with
      | some (true, heap) => some { s with
          radio := { s.radio with heap := heap }
          callback := .outside
          accepted := s.accepted ++ [f] }
      | _ => none
    | _ => none
  | .drop =>
    match s.callback with
    | .sending (some h) f =>
      match send espNowQLen s.radio.heap h f with
      | some (false, _) => some { s with callback := .outside }
      | _ => none
    | _ => none

/-- Every step there is, with what it needs and what it leaves behind. -/
inductive Step (s : ReceiveTasks tw) : Action → ReceiveTasks tw → Prop where
  | enter (o : InitOutcome) (hpc : s.main = .outside) : Step s (.enter o) (s.enter o)
  | create (ok : Bool) (hpc : s.main = .starting) :
    Step s (.create ok) { s with radio := s.radio.createQueue ok, main := .created }
  | registered (hpc : s.main = .created) :
    Step s (.register true) { s with radio := s.radio.registerCb true, main := .registered }
  | refused (hpc : s.main = .created) :
    Step s (.register false) { s with
      radio := { s.radio.registerCb false with receiverWasStarted := false }
      main := .outside }
  | setStarted (hpc : s.main = .registered) :
    Step s .setStarted { s with
      radio := { s.radio with receiverWasStarted := true }
      main := .waiting }
  | take (hpc : s.main = .waiting) {f : Frame tw} {radio : EspRadio tw}
      (hf : s.radio.queueReceive = .ok (some f, radio)) : Step s .take (s.took f radio)
  | timeOut (hpc : s.main = .waiting) : Step s .timeOut { s with main := .outside }
  | arrive (incomingData : List Byte) (beyond : Nat → Byte) (hreg : s.radio.cbRegistered = true)
      (hcall : s.callback = .outside) : Step s (.arrive incomingData beyond)
        { s with callback := .copied (copyDatagram tw incomingData beyond) }
  | readHandle {f : Frame tw} (hcall : s.callback = .copied f) :
    Step s .readHandle { s with callback := .sending s.radio.radioQ f }
  | put {h : Handle} {f : Frame tw} {heap : Heap (Frame tw)}
      (hcall : s.callback = .sending (some h) f)
      (hput : send espNowQLen s.radio.heap h f = some (true, heap)) : Step s .put { s with
        radio := { s.radio with heap := heap }
        callback := .outside
        accepted := s.accepted ++ [f] }
  | drop {h : Handle} {f : Frame tw} (hcall : s.callback = .sending (some h) f) :
    Step s .drop { s with callback := .outside }

theorem step_cases {s t : ReceiveTasks tw} {a : Action} (h : step s a = some t) : Step s a t := by
  cases a with
  | enter o =>
    simp only [step, Option.ite_none_right_eq_some] at h
    obtain ⟨hpc, he⟩ := h
    cases he
    exact .enter o hpc
  | create ok =>
    simp only [step, Option.ite_none_right_eq_some] at h
    obtain ⟨hpc, he⟩ := h
    cases he
    exact .create ok hpc
  | register ok =>
    simp only [step, Option.ite_none_right_eq_some] at h
    obtain ⟨hpc, he⟩ := h
    cases ok with
    | false =>
      cases he
      exact .refused hpc
    | true =>
      cases he
      exact .registered hpc
  | setStarted =>
    simp only [step, Option.ite_none_right_eq_some] at h
    obtain ⟨hpc, he⟩ := h
    cases he
    exact .setStarted hpc
  | take =>
    simp only [step, Option.ite_none_right_eq_some] at h
    obtain ⟨hpc, he⟩ := h
    split at he
    · rename_i f radio hf
      cases he
      exact .take hpc hf
    · cases he
  | timeOut =>
    simp only [step, Option.ite_none_right_eq_some] at h
    obtain ⟨hpc, he⟩ := h
    split at he
    · cases he
      exact .timeOut hpc
    · cases he
  | arrive incomingData beyond =>
    simp only [step] at h
    split at h
    · rename_i hreg hcall
      cases h
      exact .arrive incomingData beyond hreg hcall
    · cases h
  | readHandle =>
    simp only [step] at h
    split at h
    · rename_i f hcall
      cases h
      exact .readHandle hcall
    · cases h
  | put =>
    simp only [step] at h
    split at h
    · rename_i k f hcall
      split at h
      · rename_i heap hput
        cases h
        exact .put hcall hput
      · cases h
    · cases h
  | drop =>
    simp only [step] at h
    split at h
    · rename_i k f hcall
      split at h
      · cases h
        exact .drop hcall
      · cases h
    · cases h

abbrev run (s : ReceiveTasks tw) (as : List Action) : Option (ReceiveTasks tw) :=
  PartialRun.run step s as

/-- What the queue that `radioQ` refers to holds. -/
def pending (s : ReceiveTasks tw) : List (Frame tw) :=
  (s.radio.radioQ.bind fun h => contents s.radio.heap h).getD []

/-- `xQueueCreate` never fails. -/
def QueueCreated (a : Action) : Prop := a ≠ .create false

/-- The two phases of the receive path: before the callback is registered nothing was accepted
and every queue made so far is empty; from then on one queue holds what is accepted and not
yet removed. -/
inductive Phase (s : ReceiveTasks tw) : Prop where
  | before (hreg : s.radio.cbRegistered = false) (hstart : s.radio.receiverWasStarted = false)
      (hcb : s.callback = .outside) (hacc : s.accepted = []) (hrem : s.removed = [])
      (hq : ∀ h, s.radio.radioQ = some h → contents s.radio.heap h = some [])
      (hmain : s.main = .outside ∨ s.main = .starting ∨ s.main = .created ∧ s.radio.radioQ ≠ none)
  | after (h : Handle) (q : List (Frame tw)) (hq : s.radio.radioQ = some h)
      (hc : contents s.radio.heap h = some q) (hlen : q.length ≤ espNowQLen)
      (hacc : s.accepted = s.removed ++ q)
      (hcb : ∀ k f, s.callback = .sending k f → k = some h)
      (hmain : s.main = .registered ∧ s.radio.receiverWasStarted = false ∨
        s.radio.receiverWasStarted = true ∧ (s.main = .outside ∨ s.main = .waiting))

/-- The phase and the log of the returned packets. -/
def Inv (s : ReceiveTasks tw) : Prop :=
  Phase s ∧ s.returned = s.removed.filterMap accept

theorem inv_boot : Inv (boot tw) :=
  ⟨.before rfl rfl rfl rfl rfl (fun _ h => by cases h) (Or.inl rfl), rfl⟩

private theorem phase_enter {s : ReceiveTasks tw} (h : Phase s) (hpc : s.main = .outside)
    (o : InitOutcome) : Phase (s.enter o) := by
  cases h with
  | before hreg hstart hcb hacc hrem hq hmain =>
    refine .before hreg hstart hcb hacc hrem hq ?_
    simp only [enter, hstart]
    split
    · exact Or.inl rfl
    · exact Or.inr (Or.inl rfl)
  | after k q hq hc hlen hacc hcb hmain =>
    rcases hmain with ⟨hm, _⟩ | ⟨hstart, _⟩
    · rw [hpc] at hm
      cases hm
    · refine .after k q hq hc hlen hacc hcb (Or.inr ⟨hstart, ?_⟩)
      simp only [enter, hstart, if_true]
      split
      · exact Or.inl rfl
      · exact Or.inr rfl

private theorem phase_create {s : ReceiveTasks tw} (h : Phase s) (hpc : s.main = .starting) :
    Phase { s with radio := s.radio.createQueue true, main := .created } := by
  cases h with
  | before hreg hstart hcb hacc hrem hq hmain =>
    refine .before hreg hstart hcb hacc hrem ?_ (Or.inr (Or.inr ⟨rfl, by simp [createQueue]⟩))
    intro h hh
    obtain rfl := Option.some.inj hh
    exact contents_create_self _
  | after k q hq hc hlen hacc hcb hmain => rcases hmain with ⟨hm, _⟩ | ⟨_, hm | hm⟩ <;> simp_all

private theorem phase_register {s : ReceiveTasks tw} (h : Phase s) (hpc : s.main = .created) :
    Phase { s with radio := s.radio.registerCb true, main := .registered } ∧
      Phase { s with
        radio := { s.radio.registerCb false with receiverWasStarted := false }
        main := .outside } := by
  cases h with
  | before hreg hstart hcb hacc hrem hq hmain =>
    constructor
    · have hhandle : s.radio.radioQ ≠ none := by
        rcases hmain with hm | hm | ⟨_, hm⟩
        · simp [hpc] at hm
        · simp [hpc] at hm
        · exact hm
      obtain ⟨k, hk⟩ := Option.ne_none_iff_exists'.mp hhandle
      refine .after k [] hk (hq k hk) (Nat.zero_le _) ?_ ?_ (Or.inl ⟨rfl, hstart⟩)
      · simp only [hacc, hrem, List.append_nil]
      · intro j f hj
        rw [hcb] at hj
        cases hj
    · exact .before (by simp [registerCb, hreg]) rfl hcb hacc hrem hq (Or.inl rfl)
  | after k q hq hc hlen hacc hcb hmain => rcases hmain with ⟨hm, _⟩ | ⟨_, hm | hm⟩ <;> simp_all

private theorem phase_setStarted {s : ReceiveTasks tw} (h : Phase s) (hpc : s.main = .registered) :
    Phase { s with radio := { s.radio with receiverWasStarted := true }, main := .waiting } := by
  cases h with
  | before hreg hstart hcb hacc hrem hq hmain =>
    rcases hmain with hm | hm | ⟨hm, _⟩ <;> simp [hpc] at hm
  | after k q hq hc hlen hacc hcb hmain =>
    exact .after k q hq hc hlen hacc hcb (Or.inr ⟨rfl, Or.inr rfl⟩)

/-- A waiting main task has a queue. -/
private theorem waiting_queue {s : ReceiveTasks tw} (h : Phase s) (hpc : s.main = .waiting) :
    ∃ k q, s.radio.radioQ = some k ∧ contents s.radio.heap k = some q ∧
      q.length ≤ espNowQLen ∧ s.accepted = s.removed ++ q ∧
      (∀ j f, s.callback = .sending j f → j = some k) ∧ s.radio.receiverWasStarted = true := by
  cases h with
  | before hreg hstart hcb hacc hrem hq hmain =>
    rcases hmain with hm | hm | ⟨hm, _⟩ <;> simp [hpc] at hm
  | after k q hq hc hlen hacc hcb hmain =>
    rcases hmain with ⟨hm, _⟩ | ⟨hstart, _⟩
    · simp [hpc] at hm
    · exact ⟨k, q, hq, hc, hlen, hacc, hcb, hstart⟩

private theorem phase_take {s : ReceiveTasks tw} (h : Phase s) (hpc : s.main = .waiting)
    {f : Frame tw} {radio : EspRadio tw} (hf : s.radio.queueReceive = .ok (some f, radio)) :
    Phase (s.took f radio) := by
  obtain ⟨k, q, hq, hc, hlen, hacc, hcb, hstart⟩ := waiting_queue h hpc
  cases q with
  | nil =>
    simp only [queueReceive, hq, Option.bind_some, receive_nil hc] at hf
    cases hf
  | cons g q =>
    simp only [queueReceive, hq, Option.bind_some, receive_cons hc] at hf
    cases hf
    refine .after k q rfl (contents_update_self hc) (Nat.le_of_succ_le hlen) ?_ hcb
      (Or.inr ⟨hstart, Or.inl rfl⟩)
    simp only [took, hacc, List.append_assoc, List.singleton_append]

private theorem phase_timeOut {s : ReceiveTasks tw} (h : Phase s) (hpc : s.main = .waiting) :
    Phase { s with main := .outside } := by
  obtain ⟨k, q, hq, hc, hlen, hacc, hcb, hstart⟩ := waiting_queue h hpc
  exact .after k q hq hc hlen hacc hcb (Or.inr ⟨hstart, Or.inl rfl⟩)

private theorem phase_callback {s : ReceiveTasks tw} (h : Phase s) (c : CallbackPc (Frame tw))
    (hbusy : s.radio.cbRegistered = true ∨ s.callback ≠ .outside)
    (hc : ∀ k f, c = .sending k f → k = s.radio.radioQ) : Phase { s with callback := c } := by
  cases h with
  | before hreg hstart hcb hacc hrem hq hmain =>
    rcases hbusy with hb | hb
    · rw [hreg] at hb
      cases hb
    · exact absurd hcb hb
  | after k q hq hcont hlen hacc hcb hmain =>
    exact .after k q hq hcont hlen hacc (fun j f hj => (hc j f hj).trans hq) hmain

private theorem phase_put {s : ReceiveTasks tw} (h : Phase s) {j : Handle} {f : Frame tw}
    {heap : Heap (Frame tw)} (hcall : s.callback = .sending (some j) f)
    (hput : send espNowQLen s.radio.heap j f = some (true, heap)) :
    Phase { s with
      radio := { s.radio with heap := heap }
      callback := .outside
      accepted := s.accepted ++ [f] } := by
  cases h with
  | before hreg hstart hcb hacc hrem hq hmain =>
    rw [hcb] at hcall
    cases hcall
  | after k q hq hc hlen hacc hcb hmain =>
    obtain rfl := Option.some.inj (hcb _ _ hcall)
    rcases Nat.lt_or_ge q.length espNowQLen with hroom | hfull
    · rw [send_room hc hroom] at hput
      cases hput
      refine .after j (q ++ [f]) hq (contents_update_self hc)
        (by rw [List.length_append]; exact hroom) ?_
        (fun _ _ hn => by cases hn) hmain
      simp only [hacc, List.append_assoc]
    · rw [send_full hc hfull] at hput
      cases hput

/-- Every step of either task keeps the invariant. -/
theorem inv_step (s : ReceiveTasks tw) (a : Action) (t : ReceiveTasks tw) (hallowed : QueueCreated a)
    (hs : Inv s) (hstep : step s a = some t) : Inv t := by
  obtain ⟨hphase, hret⟩ := hs
  cases step_cases hstep with
  | enter o hpc => exact ⟨phase_enter hphase hpc o, hret⟩
  | create ok hpc =>
    cases ok with
    | false => exact absurd rfl hallowed
    | true => exact ⟨phase_create hphase hpc, hret⟩
  | registered hpc => exact ⟨(phase_register hphase hpc).1, hret⟩
  | refused hpc => exact ⟨(phase_register hphase hpc).2, hret⟩
  | setStarted hpc => exact ⟨phase_setStarted hphase hpc, hret⟩
  | @take hpc f radio hf =>
    refine ⟨phase_take hphase hpc hf, ?_⟩
    simp only [took, hret, List.filterMap_append]
    cases ha : accept f <;> simp [ha]
  | timeOut hpc => exact ⟨phase_timeOut hphase hpc, hret⟩
  | arrive incomingData beyond hreg hcall =>
    exact ⟨phase_callback hphase _ (Or.inl hreg) (fun _ _ hn => by cases hn), hret⟩
  | readHandle hcall =>
    refine ⟨phase_callback hphase _ (Or.inr (by simp [hcall])) (fun _ _ hn => ?_), hret⟩
    cases hn
    rfl
  | put hcall hput => exact ⟨phase_put hphase hcall hput, hret⟩
  | drop hcall =>
    exact ⟨phase_callback hphase _ (Or.inr (by simp [hcall])) (fun _ _ hn => by cases hn), hret⟩

theorem inv_run {as : List Action} {s t : ReceiveTasks tw} (hs : Inv s)
    (hallowed : ∀ a ∈ as, QueueCreated a) (hrun : run s as = some t) : Inv t :=
  PartialRun.run_invariant step QueueCreated Inv inv_step hs hallowed hrun

/-- A step clears `receiverWasStarted` only behind a failed registration. -/
theorem step_flags {s t : ReceiveTasks tw} {a : Action} (h : step s a = some t) :
    (s.radio.wasRadioInit = true → t.radio.wasRadioInit = true) ∧
      (s.main ≠ .created → s.radio.receiverWasStarted = true →
        t.radio.receiverWasStarted = true) := by
  cases step_cases h with
  | enter o hpc => exact ⟨fun hi => initRadio_of_init o _ hi, fun _ => id⟩
  | create ok hpc => cases ok <;> exact ⟨id, fun _ => id⟩
  | registered hpc => exact ⟨id, fun _ => id⟩
  | refused hpc => exact ⟨id, fun hne => absurd hpc hne⟩
  | setStarted hpc => exact ⟨id, fun _ _ => rfl⟩
  | take hpc hf =>
    obtain ⟨_, _, _, _, rfl⟩ := queueReceive_ok hf
    exact ⟨id, fun _ => id⟩
  | timeOut hpc => exact ⟨id, fun _ => id⟩
  | arrive incomingData beyond hreg hcall => exact ⟨id, fun _ => id⟩
  | readHandle hcall => exact ⟨id, fun _ => id⟩
  | put hcall hput => exact ⟨id, fun _ => id⟩
  | drop hcall => exact ⟨id, fun _ => id⟩

/-- While a registration is being tried the receiver has not been started. -/
theorem Phase.started_not_created {s : ReceiveTasks tw} (h : Phase s)
    (hs : s.radio.receiverWasStarted = true) : s.main ≠ .created := by
  intro hpc
  cases h with
  | before _ hstart => simp [hs] at hstart
  | after _ _ _ _ _ _ _ hmain => rcases hmain with ⟨hm, _⟩ | ⟨_, hm | hm⟩ <;> simp [hpc] at hm

/-- Neither flag ever falls back. -/
theorem flags_persist {as : List Action} {s t : ReceiveTasks tw} (hs : Inv s)
    (hallowed : ∀ a ∈ as, QueueCreated a) (hrun : run s as = some t) :
    (s.radio.wasRadioInit = true → t.radio.wasRadioInit = true) ∧
      (s.radio.receiverWasStarted = true → t.radio.receiverWasStarted = true) := by
  constructor
  · exact PartialRun.run_persistent step (fun s => s.radio.wasRadioInit = true)
      (fun _ _ _ hstep => (step_flags hstep).1) hrun
  · intro hstart
    refine (PartialRun.run_invariant step QueueCreated
      (fun s => Inv s ∧ s.radio.receiverWasStarted = true) ?_ ⟨hs, hstart⟩ hallowed hrun).2
    rintro u a v ha ⟨hu, hus⟩ hstep
    exact ⟨inv_step u a v ha hu hstep, (step_flags hstep).2 (hu.1.started_not_created hus) hus⟩

theorem Phase.pending_spec {s : ReceiveTasks tw} (h : Phase s) :
    s.pending.length ≤ espNowQLen ∧ s.removed ++ s.pending = s.accepted ∧
      (s.main = .starting → s.pending = [] ∧ s.callback = .outside) := by
  cases h with
  | before hreg hstart hcb hacc hrem hq hmain =>
    have hp : s.pending = [] := by
      rw [pending]
      cases hh : s.radio.radioQ with
      | none => rfl
      | some k => simp only [Option.bind_some, hq k hh, Option.getD_some]
    rw [hp]
    exact ⟨Nat.zero_le _, by rw [hacc, hrem]; rfl, fun _ => ⟨rfl, hcb⟩⟩
  | after k q hq hc hlen hacc hcb hmain =>
    have hp : s.pending = q := by
      simp only [pending, hq, Option.bind_some, hc, Option.getD_some]
    rw [hp]
    refine ⟨hlen, hacc.symm, fun hpc => ?_⟩
    rcases hmain with ⟨hm, _⟩ | ⟨_, hm | hm⟩ <;> simp [hpc] at hm

/-- Over every interleaving and every failure pattern the queue is bounded, in order and
lossless, the returned packets are the removed frames that pass the protocol check, a queue is
replaced only while it is empty and nothing is being sent to it, and the flags only rise. -/
theorem receive_path {acts : List Action} {s : ReceiveTasks tw}
    (hcreate : ∀ a ∈ acts, QueueCreated a) (hrun : run (boot tw) acts = some s) :
    s.pending.length ≤ espNowQLen ∧
      s.removed ++ s.pending = s.accepted ∧
      s.returned = (s.removed.map (load (EspPacket.layout tw))).filter
        (fun p => p.espProtocolID = espProtocolID) ∧
      (s.main = .starting → s.pending = [] ∧ s.callback = .outside) ∧
      ∀ more t, (∀ a ∈ more, QueueCreated a) → run s more = some t →
        (s.radio.wasRadioInit = true → t.radio.wasRadioInit = true) ∧
          (s.radio.receiverWasStarted = true → t.radio.receiverWasStarted = true) := by
  have hs : Inv s := inv_run inv_boot hcreate hrun
  obtain ⟨hbound, horder, hempty⟩ := hs.1.pending_spec
  refine ⟨hbound, horder, ?_, hempty, fun more t hmore ht => flags_persist hs hmore ht⟩
  have haccept : (accept : Frame tw → Option (EspPacket tw)) =
      fun f => (Option.guard (fun p => p.espProtocolID = espProtocolID) (load (EspPacket.layout tw) f)) := by
    funext f
    simp only [accept, Option.guard]
    split <;> simp_all
  rw [hs.2, haccept, ← List.filterMap_eq_filter, List.filterMap_map]
  rfl

/-- One frame, read by the call whose registration succeeded after an earlier one failed. -/
def retriedStart : List Action :=
  [.enter ⟨true, .ok⟩, .create true, .register false, .enter ⟨false, .other⟩, .create true,
    .register true, .arrive [1, 123, 8, 0] (fun _ => 0), .readHandle, .put, .setStarted, .take]

theorem receive_path_retriedStart : ∃ s : ReceiveTasks 4, run (boot 4) retriedStart = some s ∧
    s.removed ++ s.pending = s.accepted ∧ s.accepted.length = 1 := by
  have hcreate : ∀ a ∈ retriedStart, QueueCreated a := by simp [retriedStart, QueueCreated]
  exact ⟨_, rfl, (receive_path hcreate rfl).2.1, rfl⟩

private theorem queueReceive_none {r r' : EspRadio tw} (h : r.queueReceive = .ok (none, r')) :
    r' = r := by
  obtain ⟨k, heap, hk, hreceive, rfl⟩ := queueReceive_ok h
  rw [receive_none hreceive]

/-- A waiting main task finishes its call by taking a frame or by giving up. -/
private theorem waiting_run {s : ReceiveTasks tw} (hmain : s.main = .waiting)
    {item : Option (Frame tw)} {r : EspRadio tw} (h : s.radio.queueReceive = .ok (item, r)) :
    ∃ a t, step s a = some t ∧ t.main = .outside ∧ t.callback = s.callback ∧ t.radio = r ∧
      t.returned = s.returned ++ (item.bind accept).toList := by
  cases item with
  | none =>
    obtain rfl := queueReceive_none h
    exact ⟨.timeOut, { s with main := .outside }, by simp [step, hmain, h], rfl, rfl, rfl, by simp⟩
  | some f => exact ⟨.take, s.took f r, by simp [step, hmain, h], rfl, rfl, rfl, rfl⟩

private theorem received_of_bind {q : Except Fault (Option (Frame tw) × EspRadio tw)}
    {p : Option (EspPacket tw)} {r : EspRadio tw}
    (h : (q >>= fun x => pure (x.1.bind accept, x.2)) = .ok (p, r)) :
    ∃ item, q = .ok (item, r) ∧ p = item.bind accept := by
  cases q with
  | error e => cases h
  | ok x =>
    cases h
    exact ⟨x.1, rfl, rfl⟩

private theorem run_then {s u t : ReceiveTasks tw} {as : List Action} {a : Action}
    (hrun : run s as = some u) (hstep : step u a = some t) : run s (as ++ [a]) = some t := by
  have hrun' : PartialRun.run step s as = some u := hrun
  rw [run, PartialRun.run_append, hrun', Option.bind_some, PartialRun.run_cons, hstep]
  rfl

/-- A call of the sequential `receivePacket` is a run of the main task that the WiFi task does
not interrupt. -/
theorem receivePacket_run {s : ReceiveTasks tw} (hmain : s.main = .outside) (o : ReceiveOutcome)
    {p : Option (EspPacket tw)} {r : EspRadio tw} (h : s.radio.receivePacket o = .ok (p, r)) :
    ∃ acts t, run s acts = some t ∧ t.main = .outside ∧ t.callback = s.callback ∧ t.radio = r ∧
      t.returned = s.returned ++ p.toList := by
  obtain ⟨⟨wasInit, started, radioQ, packetID, heap, cb⟩, main, callback, accepted, removed,
    returned⟩ := s
  obtain rfl : main = .outside := hmain
  unfold receivePacket startReceiver at h
  cases hinit : initRadio o.init ⟨wasInit, started, radioQ, packetID, heap, cb⟩ with
  | false =>
    simp only [hinit, Bool.not_false, if_true] at h
    cases h
    exact ⟨[.enter o.init], _, rfl, by simp [enter, hinit], rfl, by simp [enter, hinit], by simp [enter]⟩
  | true =>
    simp only [hinit, Bool.not_true, Bool.false_eq_true, if_false] at h
    cases started with
    | true =>
      simp only [if_true, Bool.not_true, Bool.false_eq_true, if_false] at h
      obtain ⟨item, hq, rfl⟩ := received_of_bind h
      obtain ⟨a, t, hstep, ht⟩ := waiting_run
        (s := ⟨_, .waiting, callback, accepted, removed, returned⟩) rfl hq
      refine ⟨[.enter o.init] ++ [a], t, run_then ?_ hstep, ht⟩
      simp [run, PartialRun.run, step, enter, hinit]
    | false =>
      cases hreg : o.start.registerCb with
      | false =>
        simp only [hreg, Bool.false_eq_true, if_false, Bool.not_false, if_true] at h
        obtain ⟨rfl, hr⟩ := Prod.mk.inj (Except.ok.inj h)
        refine ⟨[.enter o.init, .create o.start.queueCreate, .register false],
          ⟨r, .outside, callback, accepted, removed, returned⟩, ?_, rfl, rfl, rfl, by simp⟩
        simp [run, PartialRun.run, step, enter, hinit, ← hr]
      | true =>
        simp only [hreg, Bool.false_eq_true, if_false, Bool.not_true, if_true] at h
        obtain ⟨item, hq, rfl⟩ := received_of_bind h
        obtain ⟨a, t, hstep, ht⟩ := waiting_run
          (s := ⟨_, .waiting, callback, accepted, removed, returned⟩) rfl hq
        refine ⟨[.enter o.init, .create o.start.queueCreate, .register true, .setStarted] ++ [a], t,
          run_then ?_ hstep, ht⟩
        simp [run, PartialRun.run, step, enter, hinit]

/-- A callback of the sequential model, likewise. -/
theorem onDataRecv_run {s : ReceiveTasks tw} (hreg : s.radio.cbRegistered = true)
    (hcallback : s.callback = .outside) (incomingData : List Byte) (beyond : Nat → Byte) {room : Bool}
    {r : EspRadio tw} (h : s.radio.onDataRecv incomingData beyond = .ok (room, r)) :
    ∃ t, run s [.arrive incomingData beyond, .readHandle, if room then .put else .drop] = some t ∧
      t.main = s.main ∧ t.callback = .outside ∧ t.radio = r ∧ t.accepted =
        s.accepted ++ if room then [copyDatagram tw incomingData beyond] else [] := by
  obtain ⟨⟨init, started, radioQ, packetID, heap, cb⟩, main, callback, accepted, removed,
    returned⟩ := s
  obtain rfl : cb = true := hreg
  obtain rfl : callback = .outside := hcallback
  unfold onDataRecv queueSend at h
  split at h
  · cases h
  · rename_i room' heap' hsend
    obtain ⟨rfl, hr⟩ := Prod.mk.inj (Except.ok.inj h)
    obtain ⟨k, rfl, hsent⟩ := Option.bind_eq_some_iff.mp hsend
    cases room' with
    | true =>
      refine ⟨⟨r, main, .outside, accepted ++ [copyDatagram tw incomingData beyond], removed,
        returned⟩, ?_, rfl, rfl, rfl, rfl⟩
      simp [run, PartialRun.run, step, hsent, ← hr]
    | false =>
      obtain rfl := send_refused hsent
      refine ⟨⟨r, main, .outside, accepted, removed, returned⟩, ?_, rfl, rfl, rfl, by simp⟩
      simp [run, PartialRun.run, step, hsent, ← hr]

end ReceiveTasks
end EspNowGateway.Radio
