import EspNowGateway.Radio.EspRadio

/-! Any use of the packet builder. The abstract builder is the list of the add calls that took
a slot since the last erase; the packet in memory represents it byte for byte. -/
namespace EspNowGateway.Radio
open ByteLayout BinaryFloat CArray

inductive AddCall where
  | string (pName str : List Byte)
  | numeric (pName : List Byte) (val : F64)

namespace AddCall

def kind : AddCall → ParamType
  | .string _ _ => .ptString
  | .numeric _ _ => .ptNumeric

def name : AddCall → List Byte
  | .string pName _ => pName
  | .numeric pName _ => pName

def fill : AddCall → EspParam → EspParam
  | .string pName str, slot => slot.setString pName str
  | .numeric pName val, slot => slot.setNumeric pName val

/-- What the call leaves in a slot that was zero before. -/
def slot (c : AddCall) : EspParam := c.fill EspParam.zero

@[simp] theorem slot_paramType (c : AddCall) : c.slot.paramType = c.kind.tag := by
  cases c <;> rfl

@[simp] theorem slot_paramName (c : AddCall) :
    c.slot.paramName = padded paramNameLen (EspParam.storedName c.name) := by
  cases c
  · exact EspParam.setString_paramName _ _ _
  · exact EspParam.setNumeric_paramName _ _ _

theorem slot_strParam_string (n s : List Byte) :
    (AddCall.string n s).slot.strParam = padded paramStringLen (EspParam.storedString s) :=
  EspParam.setString_strParam _ n s rfl

theorem slot_strParam_numeric (n : List Byte) (v : F64) :
    (AddCall.numeric n v).slot.strParam = padded paramStringLen [] := padded_nil.symm

theorem slot_numParam (n : List Byte) (v : F64) :
    (AddCall.numeric n v).slot.numParam = v.convert binary32 := rfl

theorem slot_name_closed (c : AddCall) : Closed c.slot.paramName := by
  rw [slot_paramName]
  exact padded_closed _ (EspParam.storedName_length_lt _)

theorem slot_string_closed (c : AddCall) : Closed c.slot.strParam := by
  cases c with
  | string n s =>
    rw [slot_strParam_string]
    exact padded_closed _ (EspParam.storedString_length_lt s)
  | numeric n v =>
    rw [slot_strParam_numeric]
    exact padded_closed _ (by decide)

/-- The arguments fit their arrays and hold no NUL. -/
def Fits : AddCall → Prop
  | .string pName str => ((0 : Byte) ∉ pName ∧ pName.length < paramNameLen) ∧
      (0 : Byte) ∉ str ∧ str.length < paramStringLen
  | .numeric pName _ => (0 : Byte) ∉ pName ∧ pName.length < paramNameLen

instance : DecidablePred Fits
  | .string _ _ => inferInstanceAs (Decidable (_ ∧ _))
  | .numeric _ _ => inferInstanceAs (Decidable (_ ∧ _))

theorem Fits.name {c : AddCall} (h : c.Fits) :
    (0 : Byte) ∉ c.name ∧ c.name.length < paramNameLen := by
  cases c with
  | string n s => exact h.1
  | numeric n v => exact h

/-- Any slot's name reads back up to its first NUL. -/
theorem slot_nameText (c : AddCall) :
    c.slot.nameText = .ok (upToNul (EspParam.storedName c.name)) := by
  rw [EspParam.nameText, slot_paramName, text_padded_upToNul _ (EspParam.storedName_length_lt _)]

theorem slot_strText (n s : List Byte) :
    (AddCall.string n s).slot.strText = .ok (upToNul (EspParam.storedString s)) := by
  rw [EspParam.strText, slot_strParam_string, text_padded_upToNul _ (EspParam.storedString_length_lt s)]

/-- A NUL-free name reads back as it was stored. -/
theorem nameText_stored {c : AddCall} (hz : (0 : Byte) ∉ c.name) :
    c.slot.nameText = .ok (EspParam.storedName c.name) := by
  rw [slot_nameText, upToNul_of_nulFree (EspParam.storedName_nulFree hz)]

/-- A slot's string reads back as the stored text. -/
theorem strText_slot {n s : List Byte} (hz : (0 : Byte) ∉ s) :
    (AddCall.string n s).slot.strText = .ok (EspParam.storedString s) := by
  rw [slot_strText, upToNul_of_nulFree (EspParam.storedString_nulFree hz)]

end AddCall

namespace EspPacket
variable {tw : Nat}

def add (p : EspPacket tw) : AddCall → Bool × EspPacket tw
  | .string pName str => p.addString pName str
  | .numeric pName val => p.addNumeric pName val

theorem add_eq_addParam (p : EspPacket tw) (c : AddCall) : p.add c = p.addParam c.fill := by
  cases c <;> rfl

end EspPacket

inductive BuilderCall (tw : Nat) where
  | add (c : AddCall)
  | sendPacket (o : SendOutcome) (batVCC_ : BitVec 16) (tempC_ : F32) (timestamp_ : BitVec (8*tw))
  | erase

namespace BuilderCall
variable {tw : Nat}

def apply (s : EspPacket tw × EspRadio tw) : BuilderCall tw → EspPacket tw × EspRadio tw
  | .add c => ((s.1.add c).2, s.2)
  | .sendPacket o batVCC_ tempC_ timestamp_ =>
    let sent := RadioState.sendPacket o s.1 batVCC_ tempC_ timestamp_ s.2
    (sent.rData, sent.radio)
  | .erase => (s.1.erase, s.2)

def applyAll (s : EspPacket tw × EspRadio tw) (calls : List (BuilderCall tw)) :
    EspPacket tw × EspRadio tw := calls.foldl apply s

/-- The add calls that hold a slot after one more call. -/
def holdSlots (cs : List AddCall) : BuilderCall tw → List AddCall
  | .add c => (cs ++ [c]).take paramMaxNum
  | .sendPacket .. => cs
  | .erase => []

def heldSlots (calls : List (BuilderCall tw)) : List AddCall := calls.foldl holdSlots []

end BuilderCall

/-- The packet in memory stands for the add calls `cs`: their slots in call order, then zeros. -/
structure Represents {tw : Nat} (cs : List AddCall) (p : EspPacket tw) : Prop where
  bound : cs.length ≤ paramMaxNum
  count : p.paramsCount.toNat = cs.length
  slots : ∀ i (h : i < paramMaxNum), p.params[i] = (cs[i]?.map AddCall.slot).getD EspParam.zero

namespace Represents
variable {tw : Nat} {cs : List AddCall} {p : EspPacket tw}

theorem zero : Represents [] (EspPacket.zero tw) where
  bound := Nat.zero_le _
  count := rfl
  slots i h := by simp [EspPacket.zero]

theorem of_same_params {q : EspPacket tw} (hp : Represents cs p)
    (hcount : q.paramsCount = p.paramsCount) (hparams : q.params = p.params) : Represents cs q where
  bound := hp.bound
  count := hcount ▸ hp.count
  slots := hparams ▸ hp.slots

theorem used_slot (hp : Represents cs p) (i : Nat) (h : i < paramMaxNum) (hi : i < cs.length) :
    p.params[i] = cs[i].slot := by
  rw [hp.slots i h, List.getElem?_eq_getElem hi]
  rfl

theorem free_slot (hp : Represents cs p) (i : Nat) (h : i < paramMaxNum) (hi : cs.length ≤ i) :
    p.params[i] = EspParam.zero := by
  rw [hp.slots i h, List.getElem?_eq_none hi]
  rfl

/-- The add calls determine the parameters. -/
theorem unique {q : EspPacket tw} (hp : Represents cs p) (hq : Represents cs q) :
    p.params = q.params ∧ p.paramsCount = q.paramsCount := by
  constructor
  · apply Vector.ext
    intro i hi
    rw [hp.slots i hi, hq.slots i hi]
  · apply BitVec.eq_of_toNat_eq
    rw [hp.count, hq.count]

/-- An add call on a free slot: the slot was zero, so its content is the call's alone. -/
theorem add (hp : Represents cs p) (c : AddCall) :
    Represents ((cs ++ [c]).take paramMaxNum) (p.add c).2 := by
  rw [EspPacket.add_eq_addParam]
  by_cases hroom : cs.length < paramMaxNum
  · have hc : p.paramsCount.toNat < paramMaxNum := hp.count ▸ hroom
    rw [EspPacket.addParam_room p _ hc, List.take_of_length_le (by simp; omega)]
    constructor
    · rw [List.length_append, List.length_singleton]
      exact hroom
    · simp only [EspPacket.count_succ_toNat hc, List.length_append, List.length_singleton, hp.count]
    · intro i h
      simp only [Vector.getElem_set, hp.count]
      split
      · rename_i hi
        subst hi
        rw [List.getElem?_append_right le_rfl, Nat.sub_self, hp.free_slot _ hroom le_rfl]
        rfl
      · rename_i hi
        rw [hp.slots i h]
        rcases Nat.lt_or_gt_of_ne hi with hlt | hgt
        · rw [List.getElem?_eq_none (by omega), List.getElem?_eq_none (by simp; omega)]
        · rw [List.getElem?_append_left hgt]
  · have hfull : paramMaxNum ≤ p.paramsCount.toNat := by rw [hp.count]; omega
    have hlen : cs.length = paramMaxNum := le_antisymm hp.bound (Nat.le_of_not_lt hroom)
    rw [EspPacket.addParam_full p _ hfull, List.take_append_of_le_length (by omega),
      List.take_of_length_le (by omega)]
    exact hp

/-- With room left, the call's slot is the first one that was free. -/
theorem added_slot (hp : Represents cs p) (c : AddCall) (hroom : p.paramsCount.toNat < paramMaxNum) :
    (p.add c).2.params[p.paramsCount.toNat] = c.slot := by
  have hlen : cs.length < paramMaxNum := hp.count ▸ hroom
  have hadd := hp.add c
  rw [List.take_of_length_le (by rw [List.length_append]; exact hlen)] at hadd
  rw [hadd.used_slot _ hroom (by rw [hp.count, List.length_append]; exact Nat.lt_succ_self _)]
  simp only [hp.count, List.getElem_concat_length]

theorem sendPacket (hp : Represents cs p) (o : SendOutcome) (b : BitVec 16) (t : F32)
    (ts : BitVec (8*tw)) (r : EspRadio tw) :
    Represents cs (RadioState.sendPacket o p b t ts r).rData := by
  cases h : r.initRadio o.init with
  | false =>
    rw [RadioState.sendPacket_down h]
    exact hp
  | true =>
    rw [RadioState.sendPacket_up h]
    exact hp.of_same_params rfl rfl

theorem erase (q : EspPacket tw) : Represents [] q.erase := by
  rw [EspPacket.erase_eq]
  exact zero

/-- One builder call. -/
theorem apply (hp : Represents cs p) (r : EspRadio tw) (call : BuilderCall tw) :
    Represents (BuilderCall.holdSlots cs call) (BuilderCall.apply (p, r) call).1 := by
  cases call with
  | add c => exact hp.add c
  | sendPacket o b t ts => exact hp.sendPacket o b t ts r
  | erase => exact erase p

/-- Any number of builder calls. -/
theorem applyAll (hp : Represents cs p) (r : EspRadio tw) (calls : List (BuilderCall tw)) :
    Represents (calls.foldl BuilderCall.holdSlots cs) (BuilderCall.applyAll (p, r) calls).1 := by
  induction calls generalizing cs p r with
  | nil => exact hp
  | cons call calls ih => exact ih (hp.apply r call) (BuilderCall.apply (p, r) call).2

/-- A represented packet prints without leaving its arrays. -/
theorem print_ok (hp : Represents cs p) : ∃ printed, p.print = .ok printed := by
  rw [EspPacket.print_ok_iff, hp.count]
  refine ⟨hp.bound, fun i h hi => ?_⟩
  rw [hp.used_slot i h hi]
  exact ⟨AddCall.slot_name_closed _, fun _ => AddCall.slot_string_closed _⟩

private theorem foldlM_range' {σ : Type} (f : σ → Nat → Except Fault σ)
    (g : σ → AddCall × Nat → Except Fault σ) (cs : List AddCall) (k : Nat) (s : σ)
    (hfg : ∀ i (h : i < cs.length) s, f s (k + i) = g s (cs[i], k + i)) :
    (List.range' k cs.length).foldlM f s = (cs.zipIdx k).foldlM g s := by
  induction cs generalizing k s with
  | nil => rfl
  | cons c cs ih =>
    rw [List.length_cons, List.range'_succ, List.zipIdx_cons, List.foldlM_cons, List.foldlM_cons]
    have h0 : f s k = g s (c, k) := hfg 0 (by simp) s
    rw [h0]
    congr 1
    funext t
    apply ih
    intro i hi t
    have hshift : k + (i + 1) = k + 1 + i := by omega
    have hnext := hfg (i + 1) (Nat.succ_lt_succ hi) t
    rw [hshift] at hnext
    exact hnext

/-- A loop over the parameters meets the slots of the add calls and nothing else. -/
theorem forParams_eq {σ : Type} (hp : Represents cs p)
    (body : σ → Nat → EspParam → Except Fault σ) (s : σ) :
    p.forParams body s = cs.zipIdx.foldlM (fun s ci => body s ci.2 ci.1.slot) s := by
  rw [EspPacket.forParams, hp.count, List.range_eq_range']
  apply foldlM_range'
  intro i hi s
  have hlt := lt_of_lt_of_le hi hp.bound
  rw [Nat.zero_add, EspPacket.param, dif_pos hlt, hp.used_slot i hlt hi]
  rfl

end Represents

/-- The packet that the add calls make out of zero bytes. -/
theorem represents_adds {tw : Nat} (p : EspPacket tw) (cs : List AddCall) :
    Represents (cs.take paramMaxNum) (cs.foldl (fun p c => (p.add c).2) p.erase) := by
  have hgen : ∀ (ds : List AddCall) (held : List AddCall) (q : EspPacket tw), Represents held q →
      Represents ((held ++ ds).take paramMaxNum) (ds.foldl (fun p c => (p.add c).2) q) := by
    intro ds
    induction ds with
    | nil =>
      intro held q hq
      rw [List.append_nil, List.take_of_length_le hq.bound]
      exact hq
    | cons d ds ih =>
      intro held q hq
      have h := ih _ _ (hq.add d)
      have hlists : ((held ++ [d]).take paramMaxNum ++ ds).take paramMaxNum =
          (held ++ d :: ds).take paramMaxNum := by
        rw [← List.singleton_append (l := ds), ← List.append_assoc]
        generalize held ++ [d] = l
        rw [List.take_append, List.take_append, List.take_take, min_self, List.length_take]
        rcases Nat.lt_or_ge l.length paramMaxNum with hl | hl
        · rw [min_eq_right hl.le]
        · simp [min_eq_left hl, Nat.sub_eq_zero_of_le hl]
      rw [hlists] at h
      exact h
  simpa using hgen cs [] p.erase (Represents.erase p)

/-- The state of the packet builder after any calls since an erase, and what one more add call
does to it. -/
theorem builder_representation {tw : Nat} (p₀ : EspPacket tw) (r : EspRadio tw)
    (calls : List (BuilderCall tw)) :
    let p := (BuilderCall.applyAll (p₀.erase, r) calls).1
    let cs := BuilderCall.heldSlots calls
    p.paramsCount.toNat = cs.length ∧ p.paramsCount.toNat ≤ paramMaxNum ∧
      (∀ i (h : i < paramMaxNum) (hi : i < cs.length),
        p.params[i].paramType = cs[i].kind.tag ∧ Closed p.params[i].paramName ∧
          Closed p.params[i].strParam) ∧
      (∀ i (h : i < paramMaxNum), p.paramsCount.toNat ≤ i →
        store EspParam.layout p.params[i] = Vector.replicate _ 0) ∧
      ∀ c : AddCall,
        ((p.add c).1 = true ↔ p.paramsCount.toNat < paramMaxNum) ∧
        ((p.add c).1 = true →
          (p.add c).2.paramsCount.toNat = p.paramsCount.toNat + 1 ∧
          (∀ i (h : i < paramMaxNum), i ≠ p.paramsCount.toNat →
            (p.add c).2.params[i] = p.params[i]) ∧
          { (p.add c).2 with params := p.params, paramsCount := p.paramsCount } = p) ∧
        ((p.add c).1 = false →
          store (EspPacket.layout tw) (p.add c).2 = store (EspPacket.layout tw) p) := by
  intro p cs
  have hp : Represents cs p := (Represents.erase p₀).applyAll r calls
  refine ⟨hp.count, hp.count ▸ hp.bound, ?_, ?_, ?_⟩
  · intro i h hi
    rw [hp.used_slot i h hi]
    exact ⟨AddCall.slot_paramType _, AddCall.slot_name_closed _, AddCall.slot_string_closed _⟩
  · intro i h hi
    rw [hp.free_slot i h (hp.count ▸ hi)]
    exact EspPacket.zero_param_image
  · intro c
    rw [EspPacket.add_eq_addParam]
    rcases Nat.lt_or_ge p.paramsCount.toNat paramMaxNum with hroom | hfull
    · rw [EspPacket.addParam_room p _ hroom]
      refine ⟨by simp [hroom], fun _ => ⟨EspPacket.count_succ_toNat hroom, ?_, rfl⟩, by simp⟩
      intro i h hi
      exact Vector.getElem_set_ne hroom h (Ne.symm hi)
    · rw [EspPacket.addParam_full p _ hfull]
      exact ⟨by simp [hfull], by simp, fun _ => rfl⟩

/-- Erase, add and send over the memory image `m`: the bytes handed to ESP-NOW. -/
def broadcast {tw : Nat} (m : Frame tw) (cs : List AddCall) (o : SendOutcome) (batVCC_ : BitVec 16)
    (tempC_ : F32) (timestamp_ : BitVec (8*tw)) (r : EspRadio tw) : Option (Frame tw) :=
  let p := cs.foldl (fun p c => (p.add c).2) (load (EspPacket.layout tw) m).erase
  (RadioState.sendPacket o p batVCC_ tempC_ timestamp_ r).frame

/-- The header of a packet as `sendPacket` fills it. -/
structure HasHeader {tw : Nat} (p : EspPacket tw) (o : SendOutcome) (batVCC_ : BitVec 16)
    (tempC_ : F32) (timestamp_ : BitVec (8*tw)) (r : EspRadio tw) : Prop where
  espProtocolID : p.espProtocolID = Radio.espProtocolID
  packetID : p.packetID = r.espPacketID.setWidth 16
  ms : p.ms = o.millis
  batVCC : p.batVCC = batVCC_
  tempC : p.tempC = tempC_
  timestamp : p.timestamp = timestamp_

/-- A handed over frame holds the header, the calls' slots and zeros. -/
theorem broadcast_represents {tw : Nat} {m f : Frame tw} {cs : List AddCall} {o : SendOutcome}
    {batVCC_ : BitVec 16} {tempC_ : F32} {timestamp_ : BitVec (8*tw)} {r : EspRadio tw}
    (h : broadcast m cs o batVCC_ tempC_ timestamp_ r = some f) :
    HasHeader (load (EspPacket.layout tw) f) o batVCC_ tempC_ timestamp_ r ∧
      Represents (cs.take paramMaxNum) (load (EspPacket.layout tw) f) := by
  rw [broadcast] at h
  cases hinit : r.initRadio o.init with
  | false =>
    rw [RadioState.sendPacket_down hinit] at h
    cases h
  | true =>
    rw [RadioState.sendPacket_up hinit] at h
    obtain rfl := Option.some.inj h
    rw [load_store]
    exact ⟨⟨rfl, rfl, rfl, rfl, rfl, rfl⟩,
      (represents_adds (load (EspPacket.layout tw) m) cs).of_same_params rfl rfl⟩

/-- No byte of an earlier use of the memory is ever broadcast. -/
theorem broadcast_independent_of_memory {tw : Nat} (m₁ m₂ : Frame tw) (cs : List AddCall)
    (o : SendOutcome) (batVCC_ : BitVec 16) (tempC_ : F32) (timestamp_ : BitVec (8*tw))
    (r : EspRadio tw) :
    broadcast m₁ cs o batVCC_ tempC_ timestamp_ r = broadcast m₂ cs o batVCC_ tempC_ timestamp_ r ∧
      ∀ f, broadcast m₁ cs o batVCC_ tempC_ timestamp_ r = some f →
        Represents (cs.take paramMaxNum) (load (EspPacket.layout tw) f) := by
  refine ⟨?_, fun f hf => (broadcast_represents hf).2⟩
  simp only [broadcast, EspPacket.erase_eq]

end EspNowGateway.Radio
