import EspNowGateway.Display.Freshness

/-! The dongle with its radio: packets arrive at any time, are queued or dropped, and the loop
takes one of them in a turn. Such a run is a run of the loop alone in which every turn is given
the packet it takes. -/
namespace EspNowGateway.System
open ByteLayout Radio Sender Display RadioState

variable {tw : Nat}

inductive Event (tw : Nat) where
  | arrive (f : SensorFrame tw) (beyond : Nat → Byte)
  | turn (t : Times) (pressed : Bool) (o : ReceiveOutcome)

def image (f : SensorFrame tw) : Frame tw := store (EspPacket.layout tw) f.packet

def step (s : Dongle × EspRadio tw) : Event tw → Except Fault (Dongle × EspRadio tw)
  | .arrive f beyond => do
    let (_, r) ← s.2.onDataRecv (image f).toList beyond
    pure (s.1, r)
  | .turn t pressed o => (s.1.refresh t pressed).processReceiver o t s.2

def runEvents (es : List (Event tw)) (s : Dongle × EspRadio tw) :
    Except Fault (Dongle × EspRadio tw) := es.foldlM step s

def Event.arrival : Event tw → Option (SensorFrame tw)
  | .arrive f _ => some f
  | .turn _ _ _ => none

def Event.turnOf : Event tw → Option (Times × Bool)
  | .arrive _ _ => none
  | .turn t pressed _ => some (t, pressed)

/-- An arriving packet is queued whole, or dropped when the queue is full. -/
theorem onDataRecv_image {r : EspRadio tw} {q : List (SensorFrame tw)} (hr : r.Ready (q.map image))
    (f : SensorFrame tw) (beyond : Nat → Byte) :
    ∃ (accepted : Bool) (r' : EspRadio tw),
      r.onDataRecv (image f).toList beyond = .ok (accepted, r') ∧
      r'.Ready ((if accepted then q ++ [f] else q).map image) ∧
      (accepted = true ↔ q.length < espNowQLen) := by
  rcases Nat.lt_or_ge q.length espNowQLen with hroom | hfull
  · obtain ⟨r', hrecv, hr'⟩ := onDataRecv_ready hr (by rwa [List.length_map]) (image f).toList beyond
    rw [copyDatagram_toList] at hr'
    exact ⟨true, r', hrecv, by rwa [if_pos rfl, List.map_append], by simp [hroom]⟩
  · have hrecv := onDataRecv_full hr (by rwa [List.length_map]) (image f).toList beyond
    exact ⟨false, r, hrecv, hr, by simp [Nat.not_lt_of_le hfull]⟩

theorem step_arrive (d : Dongle) {r : EspRadio tw} {q : List (SensorFrame tw)}
    (hr : r.Ready (q.map image)) (f : SensorFrame tw) (beyond : Nat → Byte) :
    ∃ (r' : EspRadio tw) (q' : List (SensorFrame tw)),
      step (d, r) (.arrive f beyond) = .ok (d, r') ∧ r'.Ready (q'.map image) ∧
      q'.Sublist (q ++ [f]) := by
  obtain ⟨accepted, r', hrecv, hr', _⟩ := onDataRecv_image hr f beyond
  refine ⟨r', if accepted then q ++ [f] else q, ?_, hr', ?_⟩
  · simp only [step, hrecv, bind, Except.bind, pure, Except.pure]
  · split
    · exact List.Sublist.refl _
    · exact List.sublist_append_left _ _

/-- A turn takes the oldest queued packet, if there is one. -/
theorem step_turn (d : Dongle) {r : EspRadio tw} {q : List (SensorFrame tw)}
    (hr : r.Ready (q.map image)) (hq : ∀ f ∈ q, f.WellNamed) (t : Times) (pressed : Bool)
    (o : ReceiveOutcome) :
    ∃ r' : EspRadio tw, step (d, r) (.turn t pressed o) =
        .ok ((⟨t, pressed, q.head?⟩ : Turn tw).result d, r') ∧ r'.Ready (q.tail.map image) := by
  cases q with
  | nil =>
    obtain ⟨r', hreceive, hr'⟩ := receivePacket_head hr o
    refine ⟨r', ?_, hr'⟩
    simp only [step, Dongle.processReceiver, hreceive, bind, Except.bind]
    rfl
  | cons f q =>
    obtain ⟨r', hreceive, hr'⟩ := receivePacket_ready hr o
    rw [image, accept_store _ f.protocol] at hreceive
    refine ⟨r', ?_, hr'⟩
    simp only [step, Dongle.processReceiver, hreceive, bind, Except.bind]
    rw [Dongle.handle_delivery ⟨f, t⟩ _ (hq f (by simp))]
    rfl

/-- However arrivals and turns interleave, the loop handles packets that arrived, in their order
and each at most once; a packet is missing only where the full queue dropped it. -/
theorem events_are_turns (es : List (Event tw)) (d : Dongle) {r : EspRadio tw}
    {q : List (SensorFrame tw)} (hr : r.Ready (q.map image)) (hq : ∀ f ∈ q, f.WellNamed)
    (hes : ∀ f ∈ es.filterMap Event.arrival, f.WellNamed) :
    ∃ (d' : Dongle) (r' : EspRadio tw) (ks : List (Turn tw)) (pending : List (SensorFrame tw)),
      runEvents es (d, r) = .ok (d', r') ∧ r'.Ready (pending.map image) ∧
      Display.run ks d = .ok d' ∧
      ks.map (fun k => (k.times, k.pressed)) = es.filterMap Event.turnOf ∧
      (ks.filterMap Turn.received ++ pending).Sublist (q ++ es.filterMap Event.arrival) := by
  induction es generalizing d r q with
  | nil => exact ⟨d, r, [], q, rfl, hr, rfl, rfl, by simp⟩
  | cons e es ih =>
    cases e with
    | arrive f beyond =>
      obtain ⟨r₁, q₁, hstep, hr₁, hsub₁⟩ := step_arrive d hr f beyond
      have hq₁ : ∀ g ∈ q₁, g.WellNamed := by
        intro g hg
        rcases List.mem_append.mp (hsub₁.subset hg) with h | h
        · exact hq g h
        · exact hes g (by simp [Event.arrival, List.mem_singleton.mp h])
      obtain ⟨d', r', ks, pending, hrun, hr', hks, hturns, hsub⟩ := ih d hr₁ hq₁
        fun g hg => hes g (List.mem_cons_of_mem _ hg)
      refine ⟨d', r', ks, pending, ?_, hr', hks, hturns, ?_⟩
      · rw [runEvents, List.foldlM_cons, hstep]
        exact hrun
      · have h := hsub.trans (hsub₁.append_right (es.filterMap Event.arrival))
        rwa [List.append_assoc] at h
    | turn t pressed o =>
      obtain ⟨r₁, hstep, hr₁⟩ := step_turn d hr hq t pressed o
      obtain ⟨d', r', ks, pending, hrun, hr', hks, hturns, hsub⟩ :=
        ih ((⟨t, pressed, q.head?⟩ : Turn tw).result d) hr₁
          (fun g hg => hq g (List.mem_of_mem_tail hg)) hes
      refine ⟨d', r', ⟨t, pressed, q.head?⟩ :: ks, pending, ?_, hr', ?_, ?_, ?_⟩
      · rw [runEvents, List.foldlM_cons, hstep]
        exact hrun
      · rw [Display.run, List.foldlM_cons, Turn.apply_eq fun g hg => hq g (List.mem_of_head? hg)]
        exact hks
      · simpa [Event.turnOf] using hturns
      · cases q with
        | nil => exact hsub
        | cons g q => exact hsub.cons_cons g

end EspNowGateway.System
