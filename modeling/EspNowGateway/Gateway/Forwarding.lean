import EspNowGateway.Gateway.GwLoop

/-! What the gateway forwards of a packet: one attribute for each parameter, and nothing of
the header. -/
namespace EspNowGateway.Gateway
open ByteLayout BinaryFloat CArray Radio Sender

/-- The `sendAttributeData` call that an add call asks for. -/
def published : AddCall → Publish
  | .string pName str => ⟨pName, .string str⟩
  | .numeric pName val => ⟨pName, .number (val.convert binary32)⟩

variable {tw : Nat}

/-- The call that the slot of an add call causes, whatever the arguments were. -/
def heard : AddCall → Publish
  | .string pName str =>
    ⟨upToNul (EspParam.storedName pName), .string (upToNul (EspParam.storedString str))⟩
  | .numeric pName val => ⟨upToNul (EspParam.storedName pName), .number (val.convert binary32)⟩

/-- Arguments that fit are heard as they were given. -/
theorem heard_of_fits {c : AddCall} (hc : c.Fits) : heard c = published c := by
  cases c with
  | string n s =>
    obtain ⟨⟨hn, hnlen⟩, hs, hslen⟩ := hc
    rw [heard, published, EspParam.storedName_of_lt n hnlen, EspParam.storedString_of_lt s hslen,
      upToNul_of_nulFree hn, upToNul_of_nulFree hs]
  | numeric n v =>
    obtain ⟨hn, hnlen⟩ := hc
    rw [heard, published, EspParam.storedName_of_lt n hnlen, upToNul_of_nulFree hn]

private theorem publishParam_slot (calls : List Publish) (i : Nat) (c : AddCall) :
    publishParam calls i c.slot = .ok (calls ++ [heard c]) := by
  cases c with
  | string n s =>
    have hne : ParamType.ptString.tag ≠ ParamType.ptNumeric.tag := by decide
    simp only [publishParam, AddCall.slot_paramType, AddCall.kind, hne, if_false, if_true,
      AddCall.slot_nameText, AddCall.slot_strText]
    rfl
  | numeric n v =>
    simp only [publishParam, AddCall.slot_paramType, AddCall.kind, if_true, AddCall.slot_nameText]
    rfl

private theorem publishLoop_slots (cs : List AddCall) (calls : List Publish) (k : Nat) :
    (cs.zipIdx k).foldlM (fun calls ci => publishParam calls ci.2 ci.1.slot) calls =
      .ok (calls ++ cs.map heard) := by
  induction cs generalizing calls k with
  | nil =>
    rw [List.map_nil, List.append_nil]
    rfl
  | cons c cs ih =>
    rw [List.zipIdx_cons, List.foldlM_cons, publishParam_slot]
    change (cs.zipIdx (k + 1)).foldlM _ (calls ++ [heard c]) = _
    rw [ih, List.append_assoc, List.map_cons, List.singleton_append]

/-- A packet of any add calls is forwarded call by call. -/
theorem publishPacket_represents {cs : List AddCall} {p : EspPacket tw} (hp : Represents cs p)
    (calls : List Publish) : publishPacket p calls = .ok (calls ++ cs.map heard) := by
  obtain ⟨printed, hprint⟩ := hp.print_ok
  rw [publishPacket, hprint]
  change p.forParams publishParam calls = _
  rw [hp.forParams_eq]
  exact publishLoop_slots cs calls 0

theorem publishPacket_of_fits {cs : List AddCall} {p : EspPacket tw} (hp : Represents cs p)
    (hcs : ∀ c ∈ cs, c.Fits) (calls : List Publish) :
    publishPacket p calls = .ok (calls ++ cs.map published) := by
  rw [publishPacket_represents hp, List.map_congr_left fun c hc => heard_of_fits (hcs c hc)]

/-- A turn of a connected gateway takes the oldest frame, if there is one. -/
theorem gwLoop_head {r : EspRadio tw} {q : List (Frame tw)} (hr : r.Ready q) {i : GwInputs}
    (hi : (i.connected || i.connect) = true) (s : GwState) :
    ∃ r', r'.Ready q.tail ∧ gwLoop i s r = (match q.head?.bind RadioState.accept with
      | none => .ok ((statusCalls i s).1, r', (statusCalls i s).2)
      | some rData => (publishPacket rData (statusCalls i s).2).map fun calls =>
          ({ (statusCalls i s).1 with espPackCntr := (statusCalls i s).1.espPackCntr + 1 },
            r', calls)) := by
  obtain ⟨r', hreceive, hr'⟩ := RadioState.receivePacket_head hr i.receive
  refine ⟨r', hr', ?_⟩
  have hup : (!i.connected && !i.connect) = false := by
    rw [← Bool.not_or, hi]
    rfl
  simp only [gwLoop, hup, Bool.false_eq_true, if_false, hreceive, bind, Except.bind]
  cases q.head?.bind RadioState.accept with
  | none => rfl
  | some rData =>
    dsimp only
    cases publishPacket rData (statusCalls i s).2 <;> rfl

theorem gwLoop_ready {r : EspRadio tw} {f : Frame tw} {q : List (Frame tw)} (hr : r.Ready (f :: q))
    {i : GwInputs} (hi : (i.connected || i.connect) = true) (s : GwState) :
    ∃ r', r'.Ready q ∧ gwLoop i s r = (match RadioState.accept f with
      | none => .ok ((statusCalls i s).1, r', (statusCalls i s).2)
      | some rData => (publishPacket rData (statusCalls i s).2).map fun calls =>
          ({ (statusCalls i s).1 with espPackCntr := (statusCalls i s).1.espPackCntr + 1 },
            r', calls)) := gwLoop_head hr hi s

/-- From the sender's add calls to the gateway's attributes: whatever was queued before, the
packet arrives with its header and is published call by call, once. -/
theorem sender_to_gateway {m f : Frame tw} {cs : List AddCall} {o : SendOutcome}
    {batVCC_ : BitVec 16} {tempC_ : F32} {timestamp_ : BitVec (8*tw)} {sender r : EspRadio tw}
    {q : List (Frame tw)} (os : List ReceiveOutcome) (hcs : ∀ c ∈ cs, c.Fits)
    (hsent : broadcast m cs o batVCC_ tempC_ timestamp_ sender = some f) (hr : r.Ready q)
    (hroom : q.length < espNowQLen) (hos : os.length = q.length) (beyond : Nat → Byte) :
    ∃ r', RadioState.deliver f.toList beyond os r = .ok r' ∧
      (∀ o', ∃ p r'', r'.receivePacket o' = .ok (some p, r'') ∧
        HasHeader p o batVCC_ tempC_ timestamp_ sender) ∧
      ∀ (i : GwInputs) (s : GwState), (i.connected || i.connect) = true →
        ∃ s' r'', gwLoop i s r' = .ok (s', r'',
          (statusCalls i s).2 ++ (cs.take paramMaxNum).map published) ∧ r''.Ready [] := by
  obtain ⟨hheader, hp⟩ := broadcast_represents hsent
  obtain ⟨r', hdeliver, hr'⟩ := RadioState.deliver_ready hr hroom f.toList beyond os hos
  rw [RadioState.copyDatagram_toList] at hr'
  have haccept : RadioState.accept f = some (load (EspPacket.layout tw) f) :=
    RadioState.accept_eq_some_iff.mpr ⟨rfl, hheader.espProtocolID⟩
  refine ⟨r', hdeliver, fun o' => ?_, fun i s hi => ?_⟩
  · obtain ⟨r'', hreceive, _⟩ := RadioState.receivePacket_ready hr' o'
    rw [haccept] at hreceive
    exact ⟨_, r'', hreceive, hheader⟩
  · obtain ⟨r'', hr'', hloop⟩ := gwLoop_ready hr' hi s
    have hfits : ∀ c ∈ cs.take paramMaxNum, c.Fits := fun c hc => hcs c (List.mem_of_mem_take hc)
    rw [haccept] at hloop
    dsimp only at hloop
    rw [publishPacket_of_fits hp hfits] at hloop
    exact ⟨_, r'', hloop, hr''⟩

/-- A turn with the broker connected and no status attribute due. -/
def quietTurn : GwInputs where
  connected := true
  connect := true
  macAddress := []
  dueMillis := 0
  sentMillis := 0
  rssi := 0
  channel := 0
  bssid := []
  localIp := []
  ssid := []
  receive := ⟨⟨true, .ok⟩, ⟨true, true⟩⟩

/-- A sensor's packet through an idle receiver. -/
theorem sender_to_gateway_idle : ∃ (f : Frame 4) (r' : EspRadio 4),
    broadcast (Vector.replicate _ 170) (Sensor.addCalls (ascii "Balcony3") 0)
      ⟨⟨true, .ok⟩, 1234, true⟩ 3000 (.ofNat _ 20) (RadioState.noTimestamp 4) (.boot 4) = some f ∧
    RadioState.deliver f.toList (fun _ => 0) [] (.started 4) = .ok r' ∧
    ∃ s' r'', gwLoop quietTurn ⟨0, 0⟩ r' =
      .ok (s', r'', (Sensor.addCalls (ascii "Balcony3") 0).map published) := by
  have hfits : ∀ c ∈ Sensor.addCalls (ascii "Balcony3") 0, c.Fits := by decide
  have hsent : broadcast (Vector.replicate _ 170) (Sensor.addCalls (ascii "Balcony3") 0)
      ⟨⟨true, .ok⟩, 1234, true⟩ 3000 (.ofNat _ 20) (RadioState.noTimestamp 4) (.boot 4) = some _ := rfl
  obtain ⟨r', hdeliver, _, hloop⟩ := sender_to_gateway [] hfits hsent RadioState.started_ready
    (Nat.zero_lt_succ _) rfl fun _ => 0
  obtain ⟨s', r'', hcalls, _⟩ := hloop quietTurn ⟨0, 0⟩ rfl
  exact ⟨_, r', hsent, hdeliver, s', r'', hcalls⟩

/-- Publishing reads the parameters alone. -/
theorem publishPacket_congr {p q : EspPacket tw} (hparams : p.params = q.params)
    (hcount : p.paramsCount = q.paramsCount) (calls : List Publish) :
    publishPacket p calls = publishPacket q calls := by
  have hloop {σ : Type} (body : σ → Nat → EspParam → Except Fault σ) (s : σ) :
      p.forParams body s = q.forParams body s := by
    simp only [EspPacket.forParams, EspPacket.param, hparams, hcount]
  simp only [publishPacket, EspPacket.print, hloop]
  cases q.forParams (fun lines _ slot => do pure (lines ++ [← slot.print (-1)])) [] <;> rfl

/-- The ThingsBoard calls of one turn. -/
def turnCalls (i : GwInputs) (s : GwState) (r : EspRadio tw) : Except Fault (List Publish) :=
  (gwLoop i s r).map fun result => result.2.2

theorem turnCalls_ready {r : EspRadio tw} {f : Frame tw} {q : List (Frame tw)} {p : EspPacket tw}
    (hr : r.Ready (f :: q)) (hf : RadioState.accept f = some p) (i : GwInputs) (s : GwState) :
    turnCalls i s r =
      if i.connected || i.connect then publishPacket p (statusCalls i s).2 else .ok [] := by
  cases hi : i.connected || i.connect with
  | true =>
    obtain ⟨r', _, hloop⟩ := gwLoop_ready hr hi s
    simp only [turnCalls, hloop, hf, if_true]
    cases publishPacket p (statusCalls i s).2 <;> rfl
  | false =>
    have hdown : (!i.connected && !i.connect) = true := by
      rw [← Bool.not_or, hi]
      rfl
    simp only [turnCalls, gwLoop, hdown, if_true]
    rfl

/-- Two accepted packets with the same parameters cause the same calls, whatever temperature and
battery voltage their headers carry. -/
theorem header_not_forwarded {r₁ r₂ : EspRadio tw} {f₁ f₂ : Frame tw} {p₁ p₂ : EspPacket tw}
    {q₁ q₂ : List (Frame tw)} (hr₁ : r₁.Ready (f₁ :: q₁)) (hr₂ : r₂.Ready (f₂ :: q₂))
    (h₁ : RadioState.accept f₁ = some p₁) (h₂ : RadioState.accept f₂ = some p₂)
    (hparams : p₁.params = p₂.params) (hcount : p₁.paramsCount = p₂.paramsCount)
    (i : GwInputs) (s : GwState) : turnCalls i s r₁ = turnCalls i s r₂ := by
  rw [turnCalls_ready hr₁ h₁, turnCalls_ready hr₂ h₂, publishPacket_congr hparams hcount]

/-- A receiver whose queue holds one packet. -/
def holding (p : EspPacket tw) : EspRadio tw :=
  ⟨true, true, some 0, 0, ⟨[[store (EspPacket.layout tw) p]]⟩, true⟩

theorem holding_ready (p : EspPacket tw) :
    (holding p).Ready [store (EspPacket.layout tw) p] := ⟨rfl, rfl, 0, rfl, rfl⟩

/-- A sensor at `t` degrees. -/
def balcony3 (t : Int) : SensorFrame 4 := .steady (ascii "Balcony3") (.ofInt _ t)

private theorem balcony3_same_params :
    (balcony3 20).packet.params = (balcony3 30).packet.params ∧
      (balcony3 20).packet.paramsCount = (balcony3 30).packet.paramsCount :=
  SensorFrame.steady_same_params _ (by decide +kernel) (by decide +kernel)

theorem header_not_forwarded_at_twenty :
    turnCalls quietTurn ⟨0, 0⟩ (holding (balcony3 20).packet) =
      turnCalls quietTurn ⟨0, 0⟩ (holding (balcony3 30).packet) := by
  obtain ⟨hparams, hcount⟩ := balcony3_same_params
  exact header_not_forwarded (holding_ready _) (holding_ready _)
    (RadioState.accept_store _ (balcony3 20).protocol)
    (RadioState.accept_store _ (balcony3 30).protocol) hparams hcount _ _

/-- Twenty and thirty degrees, sent by one sensor, look the same on ThingsBoard. -/
theorem header_forwarded_fails : ¬ ∀ f₁ f₂ : SensorFrame 4,
    f₁.packet.params = f₂.packet.params → f₁.packet.paramsCount = f₂.packet.paramsCount →
    ¬ f₁.packet.tempC.Same RadioState.noTempC → ¬ f₂.packet.tempC.Same RadioState.noTempC →
    f₁.packet.tempC ≠ f₂.packet.tempC → ∀ i s,
      turnCalls i s (holding f₁.packet) ≠ turnCalls i s (holding f₂.packet) := by
  intro hclaim
  obtain ⟨hparams, hcount⟩ := balcony3_same_params
  refine hclaim (balcony3 20) (balcony3 30) hparams hcount ?_ ?_ ?_ quietTurn ⟨0, 0⟩ ?_
  · rw [balcony3, SensorFrame.steady_tempC]
    decide +kernel
  · rw [balcony3, SensorFrame.steady_tempC]
    decide +kernel
  · rw [balcony3, balcony3, SensorFrame.steady_tempC, SensorFrame.steady_tempC]
    decide +kernel
  · rw [turnCalls_ready (holding_ready _) (RadioState.accept_store _ (balcony3 20).protocol),
      turnCalls_ready (holding_ready _) (RadioState.accept_store _ (balcony3 30).protocol),
      publishPacket_congr hparams hcount]

end EspNowGateway.Gateway
