import EspNowGateway.Foundations.LastWrite
import EspNowGateway.Gateway.Forwarding
import EspNowGateway.System.DongleRun

/-! The gateway with its radio: packets of any sensors arrive at any time, and the turns of the
loop publish what was queued. All sensors write the same two attributes, so the map holds what
the last published packet says. -/
namespace EspNowGateway.System
open ByteLayout BinaryFloat CArray Radio Sender Gateway RadioState LastWrite

variable {tw : Nat}

inductive GwEvent (tw : Nat) where
  | arrive (f : SensorFrame tw) (beyond : Nat → Byte)
  | turn (i : GwInputs)

namespace GwEvent

def arrival : GwEvent tw → Option (SensorFrame tw)
  | .arrive f _ => some f
  | .turn _ => none

def turnOf : GwEvent tw → Option GwInputs
  | .arrive _ _ => none
  | .turn i => some i

end GwEvent

/-- The gateway between two events, with all its calls so far and the packets that the full
queue has dropped. -/
structure GwRun (ρ : Type) where
  state : GwState
  radio : ρ
  calls : List Publish
  lost : Nat

def gwStep (w : GwRun (EspRadio tw)) : GwEvent tw → Except Fault (GwRun (EspRadio tw))
  | .arrive f beyond => do
    let (accepted, r) ← w.radio.onDataRecv (image f).toList beyond
    pure { w with radio := r, lost := if accepted then w.lost else w.lost + 1 }
  | .turn i => do
    let (s, r, calls) ← gwLoop i w.state w.radio
    pure { w with state := s, radio := r, calls := w.calls ++ calls }

def gwRun (es : List (GwEvent tw)) (w : GwRun (EspRadio tw)) : Except Fault (GwRun (EspRadio tw)) :=
  es.foldlM gwStep w

/-- The value per attribute, the last write wins. -/
def attributes (m : List Byte → Option AttrValue) (calls : List Publish) :
    List Byte → Option AttrValue := writeAll Publish.key Publish.value m calls

/-- The error count that the packet carries. -/
def errCount (f : SensorFrame tw) : F32 := f.packet.params[1].numParam

/-- The calls for one packet. -/
def sensorCalls (f : SensorFrame tw) : List Publish :=
  [⟨deviceNameKey, .string (EspParam.storedString f.senderName)⟩,
    ⟨tempErrCountKey, .number (errCount f)⟩]

def sensorKey (key : List Byte) : Bool := key = deviceNameKey ∨ key = tempErrCountKey

/-- The error count of a packet is the sensor's counter as a float. -/
theorem errCount_ofWake (s : Sensor tw) (w : Wake) (h : s.radio.initRadio w.radio.init = true) :
    errCount (.ofWake s w h) =
      (Binary.ofNat binary64 (tsReadDallas w.sensors s.tempErrCount).2.toNat).convert binary32 := by
  obtain ⟨_, hp⟩ := SensorFrame.ofWake_content s w h
  have hslot : (SensorFrame.ofWake s w h).packet.params[1] = (AddCall.numeric tempErrCountKey _).slot :=
    hp.slots 1 (by decide)
  rw [errCount, hslot, AddCall.slot_numParam]

theorem publishPacket_sensor (f : SensorFrame tw) (hz : (0 : Byte) ∉ f.senderName)
    (calls : List Publish) : publishPacket f.packet calls = .ok (calls ++ sensorCalls f) := by
  obtain ⟨count, hp⟩ := f.represents
  have hslot : f.packet.params[1] = (AddCall.numeric tempErrCountKey _).slot := hp.slots 1 (by decide)
  rw [publishPacket_represents hp, sensorCalls, errCount, hslot, AddCall.slot_numParam]
  have hkey : upToNul (EspParam.storedName deviceNameKey) = deviceNameKey := by decide
  have hkey' : upToNul (EspParam.storedName tempErrCountKey) = tempErrCountKey := by decide
  simp only [Sensor.addCalls, List.map_cons, List.map_nil, heard, hkey, hkey',
    upToNul_of_nulFree (EspParam.storedString_nulFree hz)]

/-- The status attributes of a series of turns; packets do not change when they are due. -/
def statusAll : List GwInputs → GwState → List Publish
  | [], _ => []
  | i :: is, s =>
    if i.connected || i.connect then (statusCalls i s).2 ++ statusAll is (statusCalls i s).1
    else statusAll is s

theorem statusAll_congr (is : List GwInputs) {s s' : GwState}
    (h : s.previousDataSend = s'.previousDataSend) : statusAll is s = statusAll is s' := by
  induction is generalizing s s' with
  | nil => rfl
  | cons i is ih =>
    have hnext : (statusCalls i s).1.previousDataSend = (statusCalls i s').1.previousDataSend := by
      simp only [statusCalls, h]
      split <;> simp [h]
    have hcalls : (statusCalls i s).2 = (statusCalls i s').2 := by
      simp only [statusCalls, h]
      split <;> rfl
    rw [statusAll, statusAll, hcalls, ih hnext, ih h]

/-- No status attribute has a sensor's key. -/
theorem statusCalls_keys (i : GwInputs) (s : GwState) :
    ∀ c ∈ (statusCalls i s).2, sensorKey c.key = false := by
  have hgreeting : ∀ c ∈ (if i.connected then [] else [(⟨ascii "macAddress", .string i.macAddress⟩ : Publish)]),
      sensorKey c.key = false := by
    intro c hc
    split at hc
    · cases hc
    · obtain rfl := List.mem_singleton.mp hc
      rfl
  intro c hc
  simp only [statusCalls] at hc
  split at hc
  · rcases List.mem_append.mp hc with hc | hc
    · exact hgreeting c hc
    · simp only [List.mem_cons, List.not_mem_nil, or_false] at hc
      rcases hc with rfl | rfl | rfl | rfl | rfl <;> rfl
  · exact hgreeting c hc

theorem sensorCalls_keys (f : SensorFrame tw) : ∀ c ∈ sensorCalls f, sensorKey c.key = true := by
  intro c hc
  rcases List.mem_pair.mp hc with rfl | rfl <;> rfl

/-- What a turn publishes of the oldest queued packet, and what it leaves. -/
theorem gwStep_turn {w : GwRun (EspRadio tw)} {q : List (SensorFrame tw)}
    (hr : w.radio.Ready (q.map image)) (hq : ∀ f ∈ q, (0 : Byte) ∉ f.senderName) (i : GwInputs) :
    let up := i.connected || i.connect
    ∃ w', gwStep w (.turn i) = .ok w' ∧ w'.lost = w.lost ∧
      w'.radio.Ready ((if up then q.tail else q).map image) ∧
      w'.state.previousDataSend =
        (if up then (statusCalls i w.state).1 else w.state).previousDataSend ∧
      w'.calls = w.calls ++ ((if up then (statusCalls i w.state).2 else []) ++
        (if up then q.head? else none).toList.flatMap sensorCalls) := by
  intro up
  cases hup : up with
  | false =>
    have hdown : (!i.connected && !i.connect) = true := by
      rw [← Bool.not_or]
      exact congrArg not hup
    refine ⟨{ w with calls := w.calls ++ [] }, ?_, rfl, hr, rfl, rfl⟩
    simp only [gwStep, gwLoop, hdown, if_true]
    rfl
  | true =>
    obtain ⟨r', hr', hloop⟩ := gwLoop_head hr hup w.state
    cases q with
    | nil =>
      refine ⟨⟨_, r', w.calls ++ (statusCalls i w.state).2, w.lost⟩, ?_, rfl, hr', rfl, by simp⟩
      simp only [gwStep, hloop]
      rfl
    | cons f q =>
      have hhead : ((f :: q).map image).head?.bind accept = some f.packet := accept_store _ f.protocol
      rw [hhead] at hloop
      dsimp only at hloop
      rw [publishPacket_sensor f (hq f (by simp))] at hloop
      refine ⟨⟨{ (statusCalls i w.state).1 with
          espPackCntr := (statusCalls i w.state).1.espPackCntr + 1 },
        r', w.calls ++ ((statusCalls i w.state).2 ++ sensorCalls f), w.lost⟩, ?_, rfl, hr', rfl, by simp⟩
      simp only [gwStep, hloop]
      rfl

/-- The calls of one turn, told apart by their keys. -/
private theorem turn_filter (i : GwInputs) (s : GwState) (up : Bool) (taken : List (SensorFrame tw)) :
    let calls := (if up then (statusCalls i s).2 else []) ++ taken.flatMap sensorCalls
    (calls.filter fun c => sensorKey c.key) = taken.flatMap sensorCalls ∧
      (calls.filter fun c => !sensorKey c.key) = if up then (statusCalls i s).2 else [] := by
  have hstatus : ∀ c ∈ (if up then (statusCalls i s).2 else []), sensorKey c.key = false := by
    cases up
    · intro c hc
      cases hc
    · exact statusCalls_keys i s
  have hsensor : ∀ c ∈ taken.flatMap sensorCalls, sensorKey c.key = true := by
    intro c hc
    obtain ⟨f, _, hf⟩ := List.mem_flatMap.mp hc
    exact sensorCalls_keys f c hf
  dsimp only
  rw [List.filter_append, List.filter_append]
  constructor
  · rw [List.filter_eq_nil_iff.mpr fun c hc => by simp [hstatus c hc], List.nil_append,
      List.filter_eq_self.mpr hsensor]
  · rw [List.filter_eq_self.mpr fun c hc => by simp [hstatus c hc],
      List.filter_eq_nil_iff.mpr fun c hc => by simp [hsensor c hc], List.append_nil]

/-- From `w` with `q` in the queue to `w'` with `pending`, over the given arrivals and turns: what
has been taken from the queue is what the sensors' attributes come from, in its order, and the
status attributes depend on the turns alone. -/
structure Progress (w w' : GwRun (EspRadio tw)) (q arrivals taken pending : List (SensorFrame tw))
    (turns : List GwInputs) : Prop where
  ready : w'.radio.Ready (pending.map image)
  lost : w.lost ≤ w'.lost
  order : w'.lost = w.lost → taken ++ pending = q ++ arrivals
  sensor : (w'.calls.filter fun c => sensorKey c.key) =
    (w.calls.filter fun c => sensorKey c.key) ++ taken.flatMap sensorCalls
  status : (w'.calls.filter fun c => !sensorKey c.key) =
    (w.calls.filter fun c => !sensorKey c.key) ++ statusAll turns w.state

private theorem progress_arrive {w : GwRun (EspRadio tw)} {q : List (SensorFrame tw)}
    (hr : w.radio.Ready (q.map image)) (f : SensorFrame tw) (beyond : Nat → Byte) :
    ∃ w₁ q₁, gwStep w (.arrive f beyond) = .ok w₁ ∧ w₁.radio.Ready (q₁.map image) ∧
      q₁.Sublist (q ++ [f]) ∧ ∀ {w' arrivals taken pending turns},
        Progress w₁ w' q₁ arrivals taken pending turns →
        Progress w w' q (f :: arrivals) taken pending turns := by
  obtain ⟨accepted, r', hrecv, hr', _⟩ := onDataRecv_image hr f beyond
  refine ⟨{ w with radio := r', lost := if accepted then w.lost else w.lost + 1 },
    if accepted then q ++ [f] else q, ?_, hr', ?_, fun h => ?_⟩
  · simp only [gwStep, hrecv]
    rfl
  · split
    · exact List.Sublist.refl _
    · exact List.sublist_append_left _ _
  · cases accepted with
    | false =>
      have hmore : w.lost + 1 ≤ _ := h.lost
      exact ⟨h.ready, Nat.le_of_succ_le hmore, fun hlost => by omega, h.sensor, h.status⟩
    | true =>
      refine ⟨h.ready, h.lost, fun hlost => ?_, h.sensor, h.status⟩
      have horder := h.order hlost
      rwa [if_pos rfl, List.append_assoc, List.singleton_append] at horder

private theorem progress_turn {w : GwRun (EspRadio tw)} {q : List (SensorFrame tw)}
    (hr : w.radio.Ready (q.map image)) (hq : ∀ f ∈ q, (0 : Byte) ∉ f.senderName) (i : GwInputs) :
    ∃ w₁ q₁ first, gwStep w (.turn i) = .ok w₁ ∧ w₁.radio.Ready (q₁.map image) ∧
      q₁.Sublist q ∧ ∀ {w' arrivals taken pending turns},
        Progress w₁ w' q₁ arrivals taken pending turns →
        Progress w w' q arrivals (first ++ taken) pending (i :: turns) := by
  obtain ⟨w₁, hstep, hlost, hr₁, hdue, hcalls⟩ := gwStep_turn hr hq i
  obtain ⟨hown, hother⟩ := turn_filter i w.state (i.connected || i.connect)
    (if i.connected || i.connect then q.head? else none).toList
  refine ⟨w₁, _, (if i.connected || i.connect then q.head? else none).toList, hstep, hr₁, ?_, fun h => ?_⟩
  · split
    · exact List.tail_sublist q
    · exact List.Sublist.refl q
  · refine ⟨h.ready, hlost ▸ h.lost, fun hsame => ?_, ?_, ?_⟩
    · rw [List.append_assoc, h.order (hsame.trans hlost.symm), ← List.append_assoc]
      congr 1
      split
      · cases q <;> rfl
      · rfl
    · rw [h.sensor, hcalls, List.filter_append, hown, List.flatMap_append, List.append_assoc]
    · rw [h.status, hcalls, List.filter_append, hother, List.append_assoc, statusAll_congr _ hdue]
      congr 1
      cases hup : i.connected || i.connect <;> simp [statusAll, hup]

/-- A run of any events makes progress to its end. -/
theorem gwRun_progress (es : List (GwEvent tw)) {w : GwRun (EspRadio tw)} {q : List (SensorFrame tw)}
    (hr : w.radio.Ready (q.map image)) (hq : ∀ f ∈ q, (0 : Byte) ∉ f.senderName)
    (hes : ∀ f ∈ es.filterMap GwEvent.arrival, (0 : Byte) ∉ f.senderName) :
    ∃ w' taken pending, gwRun es w = .ok w' ∧ Progress w w' q (es.filterMap GwEvent.arrival) taken
      pending (es.filterMap GwEvent.turnOf) := by
  induction es generalizing w q with
  | nil =>
    refine ⟨w, [], q, rfl, hr, Nat.le_refl _, fun _ => ?_, ?_, ?_⟩
    · rw [List.filterMap_nil, List.append_nil, List.nil_append]
    · rw [List.flatMap_nil, List.append_nil]
    · rw [List.filterMap_nil, statusAll, List.append_nil]
  | cons e es ih =>
    cases e with
    | arrive f beyond =>
      obtain ⟨hf, hrest⟩ := List.forall_mem_cons.mp hes
      obtain ⟨w₁, q₁, hstep, hr₁, hsub, hback⟩ := progress_arrive hr f beyond
      have hq₁ : ∀ g ∈ q₁, (0 : Byte) ∉ g.senderName := fun g hg =>
        (List.mem_append.mp (hsub.subset hg)).elim (hq g) fun h => List.mem_singleton.mp h ▸ hf
      obtain ⟨w', taken, pending, hrun, hprogress⟩ := ih hr₁ hq₁ hrest
      refine ⟨w', taken, pending, ?_, hback hprogress⟩
      rw [gwRun, List.foldlM_cons, hstep]
      exact hrun
    | turn i =>
      obtain ⟨w₁, q₁, first, hstep, hr₁, hsub, hback⟩ := progress_turn hr hq i
      obtain ⟨w', taken, pending, hrun, hprogress⟩ := ih hr₁ (fun g hg => hq g (hsub.subset hg)) hes
      refine ⟨w', first ++ taken, pending, ?_, hback hprogress⟩
      rw [gwRun, List.foldlM_cons, hstep]
      exact hrun

/-- Everything that arrived has been published. -/
def AllPublished (w : GwRun (EspRadio tw)) : Prop := w.lost = 0 ∧ w.radio.Ready []

private theorem pending_nil {r : EspRadio tw} {pending : List (SensorFrame tw)} (hr : r.Ready [])
    (hp : r.Ready (pending.map image)) : pending = [] := by
  obtain ⟨_, _, h, hq, hc⟩ := hr
  obtain ⟨_, _, h', hq', hc'⟩ := hp
  obtain rfl := Option.some.inj (hq.symm.trans hq')
  exact List.map_eq_nil_iff.mp (Option.some.inj (hc'.symm.trans hc))

/-- Of a series of packets only the last one is left in the map. -/
private theorem attributes_last (m : List Byte → Option AttrValue) (fs : List (SensorFrame tw)) :
    attributes m (fs.flatMap sensorCalls) = attributes m (fs.getLast?.toList.flatMap sensorCalls) := by
  rcases List.eq_nil_or_concat fs with rfl | ⟨init, f, rfl⟩
  · rfl
  · rw [List.concat_eq_append, List.getLast?_concat, List.flatMap_append]
    change writeAll _ _ m (_ ++ sensorCalls f) = writeAll _ _ m (sensorCalls f ++ [])
    rw [List.append_nil]
    refine writeAll_overwritten _ _ m fun c hc => ?_
    obtain ⟨g, _, hg⟩ := List.mem_flatMap.mp hc
    rcases List.mem_pair.mp hg with rfl | rfl
    · exact ⟨_, List.mem_cons_self, rfl⟩
    · exact ⟨_, List.mem_cons_of_mem _ List.mem_cons_self, rfl⟩

/-- The map after a run: the turns' status attributes and the last packet's two. -/
theorem attributes_run {es : List (GwEvent tw)}
    (hes : ∀ f ∈ es.filterMap GwEvent.arrival, (0 : Byte) ∉ f.senderName) {s : GwState}
    {r : EspRadio tw} (hr : r.Ready []) {w : GwRun (EspRadio tw)}
    (hrun : gwRun es ⟨s, r, [], 0⟩ = .ok w) (hall : AllPublished w)
    (m : List Byte → Option AttrValue) :
    attributes m w.calls = attributes (attributes m (statusAll (es.filterMap GwEvent.turnOf) s))
      ((es.filterMap GwEvent.arrival).getLast?.toList.flatMap sensorCalls) := by
  obtain ⟨w', taken, pending, hrun', hready, _, horder, hsensor, hstatus⟩ :=
    gwRun_progress es (w := ⟨s, r, [], 0⟩) (q := []) hr (fun f hf => by cases hf) hes
  obtain rfl : w' = w := Except.ok.inj (hrun'.symm.trans hrun)
  obtain rfl := pending_nil hall.2 hready
  have harrived : taken = es.filterMap GwEvent.arrival := by simpa using horder hall.1
  rw [List.filter_nil, List.nil_append] at hsensor hstatus
  have hsensorKeys : ∀ c ∈ taken.flatMap sensorCalls, sensorKey c.key = true := by
    intro c hc
    rw [← hsensor] at hc
    exact (List.mem_filter.mp hc).2
  have hstatusKeys : ∀ c ∈ statusAll (es.filterMap GwEvent.turnOf) s, (!sensorKey c.key) = true := by
    intro c hc
    rw [← hstatus] at hc
    exact (List.mem_filter.mp hc).2
  have hsplit : attributes m w'.calls =
      attributes m (statusAll (es.filterMap GwEvent.turnOf) s ++ taken.flatMap sensorCalls) := by
    refine writeAll_interleave _ _ sensorKey m ?_ ?_
    · rw [hsensor, List.filter_append, List.filter_eq_self.mpr hsensorKeys,
        List.filter_eq_nil_iff.mpr fun c hc => by simpa using hstatusKeys c hc, List.nil_append]
    · rw [hstatus, List.filter_append, List.filter_eq_self.mpr hstatusKeys,
        List.filter_eq_nil_iff.mpr fun c hc => by simp [hsensorKeys c hc], List.append_nil]
  rw [hsplit, attributes, writeAll_append, ← attributes, ← attributes, harrived, attributes_last]

/-- The two attributes of one packet. -/
theorem attributes_sensorCalls (m : List Byte → Option AttrValue) (f : SensorFrame tw) :
    attributes m (sensorCalls f) deviceNameKey = some (.string (EspParam.storedString f.senderName)) ∧
      attributes m (sensorCalls f) tempErrCountKey = some (.number (errCount f)) := by
  have hne : deviceNameKey ≠ tempErrCountKey := by decide
  simp only [attributes, sensorCalls, writeAll_cons, writeAll_nil]
  exact ⟨by rw [Function.update_of_ne hne, Function.update_self], Function.update_self _ _ _⟩

/-- The map tells two last packets apart exactly by what they write. -/
private theorem attributes_last_iff (m : List Byte → Option AttrValue) {last last' : Option (SensorFrame tw)}
    (hnone : last = none ↔ last' = none) :
    attributes m (last.toList.flatMap sensorCalls) = attributes m (last'.toList.flatMap sensorCalls) ↔
      last.map sensorCalls = last'.map sensorCalls := by
  cases last with
  | none =>
    rw [hnone.mp rfl]
    exact ⟨fun _ => rfl, fun _ => rfl⟩
  | some f =>
    obtain ⟨g, rfl⟩ := Option.ne_none_iff_exists'.mp (mt hnone.mpr (Option.some_ne_none f))
    simp only [Option.toList_some, List.flatMap_singleton, Option.map_some, Option.some.injEq]
    constructor
    · intro h
      obtain ⟨hname, hcount⟩ := attributes_sensorCalls m f
      obtain ⟨hname', hcount'⟩ := attributes_sensorCalls m g
      rw [h] at hname hcount
      have hnames := Option.some.inj (hname.symm.trans hname')
      have hcounts := Option.some.inj (hcount.symm.trans hcount')
      rw [sensorCalls, sensorCalls, hnames, hcounts]
    · intro h
      rw [h]

/-- The last packet of all is the last one of its sender. -/
private theorem last_of_sender {fs : List (SensorFrame tw)} {f : SensorFrame tw} (h : f ∈ fs.getLast?) :
    (fs.filter fun g => g.senderName = f.senderName).getLast? = some f := by
  obtain ⟨init, rfl⟩ := List.getLast?_eq_some_iff.mp h
  rw [List.filter_append, List.filter_cons_of_pos (by simp), List.filter_nil, List.getLast?_concat]

private theorem last_none_of_senders {fs fs' : List (SensorFrame tw)}
    (h : ∀ name : List Byte, (fs.filter fun f => f.senderName = name) = fs'.filter fun f => f.senderName = name)
    (hnone : fs.getLast? = none) : fs'.getLast? = none := by
  rw [List.getLast?_eq_none_iff] at hnone ⊢
  refine List.eq_nil_iff_forall_not_mem.mpr fun f hf => ?_
  have hmem : f ∈ fs'.filter fun g => g.senderName = f.senderName := List.mem_filter.mpr ⟨hf, by simp⟩
  rw [← h, hnone] at hmem
  cases hmem

/-- Two interleavings of the same sensors' packets, with the same turns and everything published:
the maps are alike exactly when the last packets write the same, as they do when they come from
one sender. Its name is in the map, and its latest error count. -/
theorem last_packet_decides {es es' : List (GwEvent tw)}
    (hes : ∀ f ∈ es.filterMap GwEvent.arrival, (0 : Byte) ∉ f.senderName)
    (hes' : ∀ f ∈ es'.filterMap GwEvent.arrival, (0 : Byte) ∉ f.senderName)
    (hturns : es.filterMap GwEvent.turnOf = es'.filterMap GwEvent.turnOf)
    (hsenders : ∀ name : List Byte,
      ((es.filterMap GwEvent.arrival).filter fun f => f.senderName = name) =
        (es'.filterMap GwEvent.arrival).filter fun f => f.senderName = name)
    {s : GwState} {r : EspRadio tw} (hr : r.Ready []) {w w' : GwRun (EspRadio tw)}
    (hrun : gwRun es ⟨s, r, [], 0⟩ = .ok w) (hrun' : gwRun es' ⟨s, r, [], 0⟩ = .ok w')
    (hall : AllPublished w) (hall' : AllPublished w') (m : List Byte → Option AttrValue) :
    let last := (es.filterMap GwEvent.arrival).getLast?
    let last' := (es'.filterMap GwEvent.arrival).getLast?
    (attributes m w.calls = attributes m w'.calls ↔ last.map sensorCalls = last'.map sensorCalls) ∧
      (last.map SensorFrame.senderName = last'.map SensorFrame.senderName →
        attributes m w.calls = attributes m w'.calls) ∧
      ∀ f ∈ last,
        ((es.filterMap GwEvent.arrival).filter fun g => g.senderName = f.senderName).getLast? = some f ∧
        attributes m w.calls deviceNameKey = some (.string (EspParam.storedString f.senderName)) ∧
        attributes m w.calls tempErrCountKey = some (.number (errCount f)) := by
  intro last last'
  have hmap := attributes_run hes hr hrun hall m
  have hmap' := attributes_run hes' hr hrun' hall' m
  rw [← hturns] at hmap'
  have hsame : attributes m w.calls = attributes m w'.calls ↔
      last.map sensorCalls = last'.map sensorCalls := by
    rw [hmap, hmap']
    exact attributes_last_iff _ ⟨last_none_of_senders hsenders,
      last_none_of_senders fun name => (hsenders name).symm⟩
  refine ⟨hsame, fun hsender => hsame.mpr ?_, fun f hf => ⟨last_of_sender hf, ?_⟩⟩
  · -- both are the last packet of the one sender
    cases hlast : last with
    | none =>
      rw [hlast, Option.map_none, eq_comm, Option.map_eq_none_iff] at hsender
      rw [hsender]
    | some f =>
      rw [hlast, Option.map_some, eq_comm, Option.map_eq_some_iff] at hsender
      obtain ⟨g, hg, hname⟩ := hsender
      have hf := last_of_sender hlast
      rw [hsenders, ← hname, last_of_sender hg] at hf
      rw [hg, Option.some.inj hf]
  · rw [hmap, show (es.filterMap GwEvent.arrival).getLast? = some f from hf, Option.toList_some,
      List.flatMap_singleton]
    exact attributes_sensorCalls _ f

/-- Each packet of `fs` arrives and is published before the next one. -/
def served (i : GwInputs) (fs : List (SensorFrame tw)) : List (GwEvent tw) :=
  fs.flatMap fun f => [.arrive f fun _ => 0, .turn i]

private theorem served_arrivals (i : GwInputs) (fs : List (SensorFrame tw)) :
    (served i fs).filterMap GwEvent.arrival = fs := by
  induction fs with
  | nil => rfl
  | cons f fs ih => exact congrArg (f :: ·) ih

/-- A connected gateway that is served so publishes everything. -/
private theorem served_published {i : GwInputs} (hi : (i.connected || i.connect) = true)
    {fs : List (SensorFrame tw)} (hfs : ∀ f ∈ fs, (0 : Byte) ∉ f.senderName)
    {w : GwRun (EspRadio tw)} (hw : AllPublished w) :
    ∃ w', gwRun (served i fs) w = .ok w' ∧ AllPublished w' := by
  induction fs generalizing w with
  | nil => exact ⟨w, rfl, hw⟩
  | cons f fs ih =>
    obtain ⟨hf, hrest⟩ := List.forall_mem_cons.mp hfs
    have hempty : w.radio.Ready (([] : List (SensorFrame tw)).map image) := hw.2
    obtain ⟨accepted, r', hrecv, hr', hroom⟩ := onDataRecv_image hempty f fun _ => 0
    obtain rfl : accepted = true := hroom.mpr (Nat.zero_lt_succ _)
    have harrive : gwStep w (.arrive f fun _ => 0) = .ok { w with radio := r' } := by
      simp only [gwStep, hrecv]
      rfl
    obtain ⟨w₁, hturn, hlost, hr₁, _⟩ := gwStep_turn (w := { w with radio := r' }) (q := [f]) hr'
      (List.forall_mem_singleton.mpr hf) i
    rw [hi] at hr₁
    obtain ⟨w', hrun, hall⟩ := ih hrest ⟨hlost.trans hw.1, hr₁⟩
    refine ⟨w', ?_, hall⟩
    rw [gwRun, served, List.flatMap_cons, List.foldlM_append, List.foldlM_cons, harrive]
    change (gwStep { w with radio := r' } (.turn i) >>= fun s => pure s) >>= _ = _
    rw [hturn]
    exact hrun

/-- A sensor whose probe fails in its first wake-up. -/
def balcony2 : SensorFrame 4 := .steady (ascii "Balcony2") (.ofInt _ (-127))

/-- The two sensors' packets, in either order. -/
def inTurn (first second : SensorFrame 4) : List (GwEvent 4) := served quietTurn [first, second]

private theorem inTurn_named (f g : SensorFrame 4) (hf : (0 : Byte) ∉ f.senderName)
    (hg : (0 : Byte) ∉ g.senderName) :
    ∀ h ∈ (inTurn f g).filterMap GwEvent.arrival, (0 : Byte) ∉ h.senderName := by
  rw [inTurn, served_arrivals]
  exact List.forall_mem_cons.mpr ⟨hf, List.forall_mem_singleton.mpr hg⟩

private theorem inTurn_turns (f g : SensorFrame 4) :
    (inTurn f g).filterMap GwEvent.turnOf = [quietTurn, quietTurn] := rfl

private theorem inTurn_last (f g : SensorFrame 4) :
    ((inTurn f g).filterMap GwEvent.arrival).getLast? = some g := by
  rw [inTurn, served_arrivals]
  rfl

private theorem inTurn_senders {f g : SensorFrame 4} (hne : f.senderName ≠ g.senderName)
    (name : List Byte) :
    (((inTurn f g).filterMap GwEvent.arrival).filter fun h => h.senderName = name) =
      ((inTurn g f).filterMap GwEvent.arrival).filter fun h => h.senderName = name := by
  rw [inTurn, inTurn, served_arrivals, served_arrivals]
  by_cases hf : f.senderName = name
  · have hg : g.senderName ≠ name := fun hg => hne (hf.trans hg.symm)
    simp [hf, hg]
  · by_cases hg : g.senderName = name <;> simp [hf, hg]

private theorem inTurn_published {f g : SensorFrame 4} (hf : (0 : Byte) ∉ f.senderName)
    (hg : (0 : Byte) ∉ g.senderName) : ∃ w : GwRun (EspRadio 4),
      gwRun (inTurn f g) ⟨⟨0, 0⟩, .started 4, [], 0⟩ = .ok w ∧ AllPublished w :=
  served_published rfl (List.forall_mem_cons.mpr ⟨hf, List.forall_mem_singleton.mpr hg⟩)
    ⟨rfl, started_ready⟩

private theorem balconies_named : (0 : Byte) ∉ balcony2.senderName ∧ (0 : Byte) ∉ (balcony3 20).senderName ∧
    balcony2.senderName ≠ (balcony3 20).senderName := by decide

theorem last_packet_decides_balconies : ∃ w : GwRun (EspRadio 4),
    gwRun (inTurn balcony2 (balcony3 20)) ⟨⟨0, 0⟩, .started 4, [], 0⟩ = .ok w ∧
      attributes (fun _ => none) w.calls tempErrCountKey = some (.number (errCount (balcony3 20))) := by
  obtain ⟨h₂, h₃, hne⟩ := balconies_named
  obtain ⟨w, hrun, hall⟩ := inTurn_published h₂ h₃
  obtain ⟨w', hrun', hall'⟩ := inTurn_published h₃ h₂
  obtain ⟨_, _, hlast⟩ := last_packet_decides (inTurn_named _ _ h₂ h₃) (inTurn_named _ _ h₃ h₂)
    ((inTurn_turns _ _).trans (inTurn_turns _ _).symm) (inTurn_senders hne) started_ready hrun hrun' hall hall' fun _ => none
  exact ⟨w, hrun, (hlast _ (inTurn_last _ _)).2.2⟩

private theorem errCount_steady (name : List Byte) (t : F32) : errCount (.steady name t) =
    (Binary.ofNat binary64 (tsReadDallas ⟨t, t, t⟩ 0).2.toNat).convert binary32 :=
  errCount_ofWake _ _ _

/-- The failed measurements of one sensor are gone when the other one is published last. -/
theorem error_count_overwritten : ¬ ∀ (es es' : List (GwEvent 4)),
    (∀ f ∈ es.filterMap GwEvent.arrival, (0 : Byte) ∉ f.senderName) →
    (∀ f ∈ es'.filterMap GwEvent.arrival, (0 : Byte) ∉ f.senderName) →
    es.filterMap GwEvent.turnOf = es'.filterMap GwEvent.turnOf →
    (∀ name : List Byte, ((es.filterMap GwEvent.arrival).filter fun f => f.senderName = name) =
      (es'.filterMap GwEvent.arrival).filter fun f => f.senderName = name) →
    ∀ (s : GwState) (r : EspRadio 4) (w w' : GwRun (EspRadio 4)), r.Ready [] →
    gwRun es ⟨s, r, [], 0⟩ = .ok w → gwRun es' ⟨s, r, [], 0⟩ = .ok w' →
    AllPublished w → AllPublished w' → ∀ m, attributes m w.calls = attributes m w'.calls := by
  intro hclaim
  obtain ⟨h₂, h₃, hne⟩ := balconies_named
  have hnames := inTurn_named _ _ h₂ h₃
  have hnames' := inTurn_named _ _ h₃ h₂
  obtain ⟨w, hrun, hall⟩ := inTurn_published h₂ h₃
  obtain ⟨w', hrun', hall'⟩ := inTurn_published h₃ h₂
  have hsame := hclaim _ _ hnames hnames' ((inTurn_turns _ _).trans (inTurn_turns _ _).symm)
    (inTurn_senders hne) _ _ w w' started_ready
    hrun hrun' hall hall' fun _ => none
  rw [attributes_run hnames started_ready hrun hall, attributes_run hnames' started_ready hrun' hall',
    inTurn_last, inTurn_last] at hsame
  have hcounts := congrFun hsame tempErrCountKey
  simp only [Option.toList_some, List.flatMap_singleton, (attributes_sensorCalls _ _).2] at hcounts
  have hdiffer : errCount (balcony3 20) ≠ errCount balcony2 := by
    rw [balcony2, balcony3, errCount_steady, errCount_steady]
    decide +kernel
  exact hdiffer (AttrValue.number.inj (Option.some.inj hcounts))

end EspNowGateway.System
