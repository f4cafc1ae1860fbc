import EspNowGateway.Radio.EspParam

/-! The broadcast packet: its packed memory, the builder calls and the printed report.
`tw` is the width of `time_t` in bytes, which the pinned toolchains do not agree on. -/
namespace EspNowGateway.Radio
open ByteLayout BinaryFloat CArray

def espProtocolID : BitVec 32 := 555777

structure EspPacket (tw : Nat) where
  espProtocolID : BitVec 32
  paramsCount : BitVec 8
  packetID : BitVec 16
  ms : BitVec 32
  batVCC : BitVec 16
  tempC : F32
  timestamp : BitVec (8*tw)
  params : Vector EspParam paramMaxNum
  deriving DecidableEq

namespace EspPacket
variable {tw : Nat}

abbrev sizeof (tw : Nat) : Nat := 4 + (1 + (2 + (4 + (2 + (4 + (tw + paramMaxNum * EspParam.sizeof))))))

private def fields (tw : Nat) :=
  append (word 4) (append (word 1) (append (word 2) (append (word 4) (append (word 2)
    (append floatLayout (append (word tw) (array paramMaxNum EspParam.layout)))))))

/-- The packed structure, field after field. -/
def layout (tw : Nat) : Layout (EspPacket tw) (sizeof tw) where
  toFun p := fields tw (p.espProtocolID, p.paramsCount, p.packetID, p.ms, p.batVCC, p.tempC,
    p.timestamp, p.params)
  invFun v :=
    let f := (fields tw).symm v
    ⟨f.1, f.2.1, f.2.2.1, f.2.2.2.1, f.2.2.2.2.1, f.2.2.2.2.2.1, f.2.2.2.2.2.2.1, f.2.2.2.2.2.2.2⟩
  left_inv p := by simp only [Equiv.symm_apply_apply]
  right_inv v := by simp only [Prod.mk.eta, Equiv.apply_symm_apply]

/-- The declared defaults of a static packet, whose slots start as zero bytes. -/
def initial (tw : Nat) : EspPacket tw where
  espProtocolID := Radio.espProtocolID
  paramsCount := 0
  packetID := 0
  ms := BitVec.ofNat 32 paramNoVal32
  batVCC := BitVec.ofNat 16 paramNoVal16
  tempC := .ofNat _ paramNoVal16
  timestamp := BitVec.ofNat (8*tw) paramNoVal32
  params := Vector.replicate _ ⟨ParamType.ptNone.tag, Vector.replicate _ 0, ⟨0⟩, Vector.replicate _ 0⟩

/-- `memset(this, 0, sizeof(tEspPacket))`. -/
def erase (p : EspPacket tw) : EspPacket tw :=
  load (layout tw) (memset (store (layout tw) p) 0 (sizeof tw))

/-- The common body of `addString` and `addNumeric`: `fill` sets the first free slot. -/
def addParam (p : EspPacket tw) (fill : EspParam → EspParam) : Bool × EspPacket tw :=
  if h : paramMaxNum ≤ p.paramsCount.toNat then (false, p)
  else
    have hlt := Nat.lt_of_not_le h
    (true, { p with
      params := p.params.set p.paramsCount.toNat (fill p.params[p.paramsCount.toNat])
      paramsCount := p.paramsCount + 1 })

def addString (p : EspPacket tw) (pName str : List Byte) : Bool × EspPacket tw :=
  p.addParam fun slot => slot.setString pName str

def addNumeric (p : EspPacket tw) (pName : List Byte) (val : F64) : Bool × EspPacket tw :=
  p.addParam fun slot => slot.setNumeric pName val

/-- `params[i]`. -/
def param (p : EspPacket tw) (i : Nat) : Except Fault EspParam :=
  if h : i < paramMaxNum then .ok p.params[i] else .error (.paramIndex i)

/-- `for (auto i = 0; i < paramsCount; i++)` over `params[i]`, with the loop's variables as `σ`. -/
def forParams {σ : Type} (p : EspPacket tw) (body : σ → Nat → EspParam → Except Fault σ) (s : σ) :
    Except Fault σ :=
  (List.range p.paramsCount.toNat).foldlM (fun s i => do body s i (← p.param i)) s

structure PrintedPacket where
  packetID : BitVec 16
  ms : Option (BitVec 32)
  timestamp : Option Nat
  tempC : Option F32
  batVCC : Option (BitVec 16)
  params : List EspParam.PrintedLine
  deriving DecidableEq

def print (p : EspPacket tw) : Except Fault PrintedPacket := do
  let lines ← p.forParams (fun lines _ slot => do pure (lines ++ [← slot.print (-1)])) []
  pure {
    packetID := p.packetID
    ms := if p.ms.toNat ≠ paramNoVal32 then some p.ms else none
    timestamp := if p.timestamp.toNat ≠ paramNoVal32 then some p.timestamp.toNat else none
    tempC := if ¬ p.tempC.Same (.ofNat _ paramNoVal16) then some p.tempC else none
    batVCC := if p.batVCC.toNat ≠ paramNoVal16 then some p.batVCC else none
    params := lines }

/-- The packet of zero bytes. -/
def zero (tw : Nat) : EspPacket tw := ⟨0, 0, 0, 0, 0, ⟨0⟩, 0, Vector.replicate _ EspParam.zero⟩

theorem zero_float_image : floatLayout ⟨0⟩ = Vector.replicate 4 0 := word_zero 4

theorem zero_param_image : EspParam.layout EspParam.zero = Vector.replicate _ 0 :=
  append_replicate _ _ (word_zero 4) (append_replicate _ _ rfl
    (append_replicate _ _ zero_float_image rfl))

theorem zero_image (tw : Nat) : layout tw (zero tw) = Vector.replicate _ 0 :=
  append_replicate _ _ (word_zero 4) (append_replicate _ _ (word_zero 1)
    (append_replicate _ _ (word_zero 2) (append_replicate _ _ (word_zero 4)
      (append_replicate _ _ (word_zero 2) (append_replicate _ _ zero_float_image
        (append_replicate _ _ (word_zero tw) (array_replicate _ _ zero_param_image)))))))

/-- Erasing leaves no trace of the earlier content. -/
theorem erase_eq (p : EspPacket tw) : p.erase = zero tw := by
  rw [erase, memset_all, load, Equiv.symm_apply_eq, zero_image]

theorem addParam_full (p : EspPacket tw) (fill : EspParam → EspParam)
    (h : paramMaxNum ≤ p.paramsCount.toNat) : p.addParam fill = (false, p) := dif_pos h

theorem addParam_room (p : EspPacket tw) (fill : EspParam → EspParam)
    (h : p.paramsCount.toNat < paramMaxNum) :
    p.addParam fill = (true, { p with
      params := p.params.set p.paramsCount.toNat (fill p.params[p.paramsCount.toNat])
      paramsCount := p.paramsCount + 1 }) := dif_neg (Nat.not_le_of_lt h)

/-- Below the limit the 8-bit count does not wrap. -/
theorem count_succ_toNat {c : BitVec 8} (h : c.toNat < paramMaxNum) : (c + 1).toNat = c.toNat + 1 := by
  have h4 : c.toNat < 4 := h
  rw [BitVec.toNat_add]
  exact Nat.mod_eq_of_lt (by change c.toNat + 1 < 256; omega)

private theorem foldlM_ok_iff {σ ι : Type} (f : σ → ι → Except Fault σ) (Good : ι → Prop)
    (hf : ∀ s i, (∃ t, f s i = .ok t) ↔ Good i) (l : List ι) (s : σ) :
    (∃ t, l.foldlM f s = .ok t) ↔ ∀ i ∈ l, Good i := by
  induction l generalizing s with
  | nil => simp [pure, Except.pure]
  | cons i l ih =>
    rw [List.foldlM_cons]
    cases hi : f s i with
    | error e =>
      have hbad : ¬ Good i := by rw [← hf s i, hi]; simp
      simp [bind, Except.bind, hbad]
    | ok t =>
      have hgood : Good i := (hf s i).mp ⟨t, hi⟩
      simpa [bind, Except.bind, hgood] using ih t

/-- A loop over the parameters stays inside its objects exactly when the count does and every
slot it visits can be read. -/
theorem forParams_ok_iff {σ : Type} (p : EspPacket tw) (body : σ → Nat → EspParam → Except Fault σ)
    (Good : EspParam → Prop) (hbody : ∀ s i x, (∃ t, body s i x = .ok t) ↔ Good x) (s : σ) :
    (∃ t, p.forParams body s = .ok t) ↔
      p.paramsCount.toNat ≤ paramMaxNum ∧
        ∀ i (h : i < paramMaxNum), i < p.paramsCount.toNat → Good p.params[i] := by
  rw [forParams, foldlM_ok_iff _ (fun i => ∃ h : i < paramMaxNum, Good p.params[i])]
  · simp only [List.mem_range]
    constructor
    · intro hall
      refine ⟨?_, fun i _ hi => (hall i hi).2⟩
      by_contra hlt
      exact absurd (hall paramMaxNum (Nat.lt_of_not_le hlt)).1 (lt_irrefl _)
    · rintro ⟨hle, hall⟩ i hi
      exact ⟨lt_of_lt_of_le hi hle, hall i _ hi⟩
  · intro s i
    by_cases h : i < paramMaxNum
    · simpa [param, h, bind, Except.bind] using hbody s i p.params[i]
    · simp [param, h, bind, Except.bind]

/-- Printing a packet is safe exactly when every slot it counts exists and holds C strings. -/
theorem print_ok_iff (p : EspPacket tw) :
    (∃ r, p.print = .ok r) ↔
      p.paramsCount.toNat ≤ paramMaxNum ∧ ∀ i (h : i < paramMaxNum), i < p.paramsCount.toNat →
        Closed p.params[i].paramName ∧
          (p.params[i].paramType = ParamType.ptString.tag → Closed p.params[i].strParam) := by
  rw [← forParams_ok_iff p (fun lines _ slot => do pure (lines ++ [← slot.print (-1)]))
    (fun x => Closed x.paramName ∧ (x.paramType = ParamType.ptString.tag → Closed x.strParam)) _ []]
  · rw [print]
    cases p.forParams _ _ <;> simp [bind, Except.bind, pure, Except.pure]
  · intro s i x
    rw [← x.print_ok_iff (-1)]
    cases x.print (-1) <;> simp [bind, Except.bind, pure, Except.pure]

end EspPacket
end EspNowGateway.Radio
