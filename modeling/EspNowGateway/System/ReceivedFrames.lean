import EspNowGateway.Display.Loop
import EspNowGateway.Gateway.GwLoop

/-! What the one check of `receivePacket` says about a datagram from the air: nothing about its
length and nothing about the packet's inside, so both depend on who sent it. -/
namespace EspNowGateway.System
open ByteLayout CArray Radio Gateway Display RadioState

variable {tw : Nat}

/-- What the next `receivePacket` may return is `P`. -/
def Returns (P : EspPacket tw → Prop) (r : EspRadio tw) : Prop :=
  ∀ o p r', r.receivePacket o = .ok (some p, r') → P p

/-- Behind any backlog the copied datagram is returned exactly when its protocol number fits. -/
theorem returns_iff {r : EspRadio tw} {q : List (Frame tw)} (hr : r.Ready q)
    (hroom : q.length < espNowQLen) (os : List ReceiveOutcome) (hos : os.length = q.length)
    (incomingData : List Byte) (beyond : Nat → Byte) (P : EspPacket tw → Prop) :
    ∃ r', deliver incomingData beyond os r = .ok r' ∧
      (Returns P r' ↔
        (load (EspPacket.layout tw) (copyDatagram tw incomingData beyond)).espProtocolID ≠
            espProtocolID ∨
          P (load (EspPacket.layout tw) (copyDatagram tw incomingData beyond))) := by
  obtain ⟨r', hdeliver, hr'⟩ := deliver_ready hr hroom incomingData beyond os hos
  refine ⟨r', hdeliver, ?_⟩
  constructor
  · intro h
    by_contra hbad
    obtain ⟨hprotocol, hP⟩ := not_or.mp hbad
    obtain ⟨r'', hreceive, _⟩ := receivePacket_ready hr' ⟨⟨true, .ok⟩, ⟨true, true⟩⟩
    rw [accept_eq_some_iff.mpr ⟨rfl, not_not.mp hprotocol⟩] at hreceive
    exact hP (h _ _ _ hreceive)
  · rintro h o p r'' hreceive
    obtain ⟨r₁, hready, _⟩ := receivePacket_ready hr' o
    rw [hready] at hreceive
    obtain ⟨haccept, _⟩ := Prod.mk.inj (Except.ok.inj hreceive)
    obtain ⟨rfl, hprotocol⟩ := accept_eq_some_iff.mp haccept
    exact h.resolve_left fun hne => hne hprotocol

/-- The consumers of a returned packet stay inside their arrays. -/
structure ConsumersSafe (p : EspPacket tw) : Prop where
  print : ∃ printed, p.print = .ok printed
  publish : ∀ calls, ∃ calls', publishPacket p calls = .ok calls'
  display : ∀ t s, ∃ s', Dongle.handlePacket p t s = .ok s'

/-- At most as many parameters as slots, each with closed texts. -/
def WellFormed (p : EspPacket tw) : Prop :=
  p.paramsCount.toNat ≤ paramMaxNum ∧ ∀ i (h : i < paramMaxNum), i < p.paramsCount.toNat →
    Closed p.params[i].paramName ∧
      (p.params[i].paramType = ParamType.ptString.tag → Closed p.params[i].strParam)

theorem consumersSafe_iff (p : EspPacket tw) : ConsumersSafe p ↔ WellFormed p := by
  constructor
  · intro h
    exact p.print_ok_iff.mp h.print
  · intro h
    obtain ⟨printed, hprint⟩ := p.print_ok_iff.mpr h
    refine ⟨⟨printed, hprint⟩, fun calls => ?_, fun t s => ?_⟩
    · obtain ⟨calls', hloop⟩ := (p.forParams_ok_iff publishParam _ publishParam_ok_iff calls).mpr
        ⟨h.1, fun i hi hc => ⟨fun _ => (h.2 i hi hc).1, fun hs => ⟨(h.2 i hi hc).1, (h.2 i hi hc).2 hs⟩⟩⟩
      exact ⟨calls', by rw [publishPacket, hprint]; exact hloop⟩
    · obtain ⟨s', hloop⟩ := (p.forParams_ok_iff (Dongle.handleParam p t) _
        (Dongle.handleParam_ok_iff p t) s).mpr
        ⟨h.1, fun i hi hc hs => ⟨(h.2 i hi hc).1, fun _ => (h.2 i hi hc).2 hs⟩⟩
      exact ⟨s', by rw [Dongle.handlePacket, hprint]; exact hloop⟩

/-- A complete frame is safe for its consumers exactly when the check rejects it or it counts no
more parameters than there are and closes their texts. -/
theorem frame_safe_iff {r : EspRadio tw} {q : List (Frame tw)} (hr : r.Ready q)
    (hroom : q.length < espNowQLen) (os : List ReceiveOutcome) (hos : os.length = q.length)
    (f : Frame tw) (beyond : Nat → Byte) :
    ∃ r', deliver f.toList beyond os r = .ok r' ∧
      (Returns ConsumersSafe r' ↔
        (load (EspPacket.layout tw) f).espProtocolID ≠ espProtocolID ∨
          WellFormed (load (EspPacket.layout tw) f)) := by
  obtain ⟨r', hdeliver, h⟩ := returns_iff hr hroom os hos f.toList beyond ConsumersSafe
  rw [copyDatagram_toList, consumersSafe_iff] at h
  exact ⟨r', hdeliver, h⟩

/-- A frame without a single text that claims to hold `paramsCount` parameters. -/
def emptyFrame (paramsCount : BitVec 8) : Frame 4 :=
  store (EspPacket.layout 4)
    { EspPacket.zero 4 with espProtocolID := espProtocolID, paramsCount := paramsCount }

theorem frame_safe_iff_emptyFrame : ∃ r', deliver (emptyFrame 4).toList (fun _ => 0) [] (.started 4) =
    .ok r' ∧ Returns ConsumersSafe r' := by
  obtain ⟨r', hdeliver, h⟩ := frame_safe_iff started_ready (Nat.zero_lt_succ _) [] rfl (emptyFrame 4)
    fun _ => 0
  refine ⟨r', hdeliver, h.mpr (Or.inr ?_)⟩
  rw [emptyFrame, load_store]
  exact ⟨le_rfl, by decide⟩

/-- A frame that counts five parameters is returned, and printing it leaves the array. -/
theorem crowded_frame_returned : ¬ ∀ (f : Frame 4) (beyond : Nat → Byte) (r' : EspRadio 4),
    deliver f.toList beyond [] (.started 4) = .ok r' → Returns ConsumersSafe r' := by
  intro hclaim
  obtain ⟨r', hdeliver, h⟩ := returns_iff started_ready (Nat.zero_lt_succ _) [] rfl
    (emptyFrame 5).toList (fun _ => 0) ConsumersSafe
  rw [copyDatagram_toList, emptyFrame, load_store, consumersSafe_iff] at h
  rcases h.mp (hclaim _ _ _ hdeliver) with hprotocol | hformed
  · exact hprotocol rfl
  · exact absurd hformed.1 (by decide)

/-- Every byte of the packet is the datagram's, and every byte of the datagram is used. -/
def IsImageOf (incomingData : List Byte) (p : EspPacket tw) : Prop :=
  (store (EspPacket.layout tw) p).toList = incomingData

/-- A datagram is returned as it was sent exactly when it has the packet's length or the memory
at its address does not begin with the protocol bytes. -/
theorem datagram_intact_iff {r : EspRadio tw} {q : List (Frame tw)} (hr : r.Ready q)
    (hroom : q.length < espNowQLen) (os : List ReceiveOutcome) (hos : os.length = q.length)
    (incomingData : List Byte) (beyond : Nat → Byte) :
    ∃ r', deliver incomingData beyond os r = .ok r' ∧
      (Returns (IsImageOf incomingData) r' ↔
        incomingData.length = EspPacket.sizeof tw ∨
          (List.range 4).map (memoryAt incomingData beyond) ≠ protocolBytes) := by
  obtain ⟨r', hdeliver, h⟩ := returns_iff hr hroom os hos incomingData beyond (IsImageOf incomingData)
  refine ⟨r', hdeliver, h.trans ?_⟩
  rw [or_comm, IsImageOf, store_load]
  refine or_congr ⟨fun hcopy => ?_, fun hlen => ?_⟩ (not_congr accept_copyDatagram)
  · rw [← hcopy, Vector.length_toList]
  · obtain ⟨f, rfl⟩ : ∃ f : Frame tw, f.toList = incomingData :=
      ⟨⟨incomingData.toArray, by simpa using hlen⟩, rfl⟩
    rw [copyDatagram_toList]

theorem datagram_intact_iff_emptyFrame : ∃ r', deliver (emptyFrame 0).toList (fun _ => 7) [] (.started 4) =
    .ok r' ∧ Returns (IsImageOf (emptyFrame 0).toList) r' := by
  obtain ⟨r', hdeliver, h⟩ := datagram_intact_iff started_ready (Nat.zero_lt_succ _) [] rfl
    (emptyFrame 0).toList fun _ => 7
  exact ⟨r', hdeliver, h.mpr (Or.inl Vector.length_toList)⟩

/-- Four bytes from the air and whatever lies behind them make a packet. -/
theorem short_datagram_returned : ¬ ∀ (incomingData : List Byte) (beyond : Nat → Byte)
    (r' : EspRadio 4), incomingData.length ≤ 250 →
    deliver incomingData beyond [] (.started 4) = .ok r' → Returns (IsImageOf incomingData) r' := by
  intro hclaim
  obtain ⟨r', hdeliver, h⟩ := returns_iff started_ready (Nat.zero_lt_succ _) [] rfl
    [1, 123, 8, 0] (fun _ => 0) (IsImageOf [1, 123, 8, 0])
  rcases h.mp (hclaim _ _ _ (by decide) hdeliver) with hprotocol | himage
  · exact hprotocol (accept_copyDatagram.mpr (by decide))
  · have hlen := congrArg List.length himage
    rw [Vector.length_toList] at hlen
    exact absurd hlen (by decide)

end EspNowGateway.System
