import EspNowGateway.Radio.PacketBuilder

/-! What a slot makes of the texts it is given. A text is cut where its array ends, by a length
that was cut to 8 bits before, over an array that was cleared only as far as a name is long. -/
namespace EspNowGateway.Radio
open ByteLayout BinaryFloat CArray

/-- Both texts read back as the first bytes that their arrays have room for. -/
structure ReadsBack (slot : EspParam) (pName str : List Byte) : Prop where
  name : slot.nameText = .ok (pName.take (paramNameLen - 1))
  string : slot.strText = .ok (str.take (paramStringLen - 1))

/-- The byte behind the copied text. -/
def textEnd (str : List Byte) : Fin paramStringLen :=
  ⟨min str.length (paramStringLen - 1), Nat.lt_succ_of_le (min_le_right _ _)⟩

namespace EspParam

private theorem setString_strParam_getElem (p : EspParam) (n s : List Byte) (i : Nat)
    (h : i < paramStringLen) : (p.setString n s).strParam[i] =
      if i < (clippedLen stringMaxLen s).toNat then s.getD i 0
      else if i < paramNameLen then 0 else p.strParam[i] := by
  change (memcpy (memset p.strParam 0 paramNameLen) s _)[i] = _
  rw [getElem_memcpy, getElem_memset]

private theorem clippedLen_eq_textEnd {s : List Byte} (hlen : s.length < 256) :
    (clippedLen stringMaxLen s).toNat = (textEnd s).val := by
  have h19 : stringMaxLen.toNat = paramStringLen - 1 := rfl
  rw [clippedLen_toNat, h19, Nat.mod_eq_of_lt hlen, min_comm]
  rfl

private theorem take_length_eq_textEnd (s : List Byte) :
    (s.take (paramStringLen - 1)).length = (textEnd s).val := by
  rw [List.length_take, min_comm]
  rfl

/-- In front of its end the string is the text. -/
private theorem setString_copied (p : EspParam) (n : List Byte) {s : List Byte} (hlen : s.length < 256)
    (i : Nat) (h : i < paramStringLen) (hi : i < (s.take (paramStringLen - 1)).length) :
    (p.setString n s).strParam[i] = (s.take (paramStringLen - 1))[i] := by
  have hcopied : i < (clippedLen stringMaxLen s).toNat := by
    rwa [clippedLen_eq_textEnd hlen, ← take_length_eq_textEnd]
  rw [List.length_take] at hi
  rw [setString_strParam_getElem, if_pos hcopied, List.getElem_take,
    List.getD_eq_getElem _ _ (lt_of_lt_of_le hi (min_le_right _ _))]

/-- At its end is a cleared byte or an old one. -/
private theorem setString_textEnd (p : EspParam) (n : List Byte) {s : List Byte} (hlen : s.length < 256) :
    (p.setString n s).strParam[textEnd s] = 0 ↔
      (textEnd s).val < paramNameLen ∨ p.strParam[textEnd s] = 0 := by
  have hend : ¬ (textEnd s).val < (clippedLen stringMaxLen s).toNat := by
    rw [clippedLen_eq_textEnd hlen]
    exact lt_irrefl _
  change (p.setString n s).strParam[(textEnd s).val] = 0 ↔ _
  rw [setString_strParam_getElem, if_neg hend]
  by_cases hcleared : (textEnd s).val < paramNameLen
  · simp only [hcleared, if_true, true_or]
  · simp only [hcleared, if_false, false_or]
    rfl

private theorem strText_eq_ok_iff (p : EspParam) (t : List Byte) :
    p.strText = .ok t ↔ text p.strParam = some t := by
  rw [strText]
  cases text p.strParam <;> simp

/-- Over any old content the string ends where it should exactly when that byte was cleared or was
NUL before. -/
private theorem strText_setString_iff (p : EspParam) (n : List Byte) {s : List Byte}
    (hz : (0 : Byte) ∉ s) (hlen : s.length < 256) :
    (p.setString n s).strText = .ok (s.take (paramStringLen - 1)) ↔
      (textEnd s).val < paramNameLen ∨ p.strParam[textEnd s] = 0 := by
  have hshort := take_length_eq_textEnd s ▸ (textEnd s).isLt
  rw [strText_eq_ok_iff, text_eq_iff _ _ hshort (fun h => hz (List.mem_of_mem_take h))
    fun i hi => setString_copied p n hlen i _ hi, ← setString_textEnd p n hlen]
  simp only [take_length_eq_textEnd]
  rfl

private theorem nameText_setString (p : EspParam) {n : List Byte} (s : List Byte)
    (hz : (0 : Byte) ∉ n) : (p.setString n s).nameText = .ok (storedName n) := by
  rw [nameText, setString_paramName, text_padded _ (storedName_length_lt n) (storedName_nulFree hz)]

/-- A slot that was used before reads back what it is set to exactly when the new string ends
among the bytes that `setString` clears, or on a NUL of the old one. -/
theorem setString_reads_back_iff (p : EspParam) {pName str : List Byte} (hname : (0 : Byte) ∉ pName)
    (hstr : (0 : Byte) ∉ str) (hnameLen : pName.length < 256) (hstrLen : str.length < 256) :
    ReadsBack (p.setString pName str) pName str ↔
      (textEnd str).val < paramNameLen ∨ p.strParam[textEnd str] = 0 := by
  rw [← strText_setString_iff p pName hstr hstrLen]
  refine ⟨fun h => h.string, fun h => ⟨?_, h⟩⟩
  rw [nameText_setString p str hname, storedName, take_clippedLen _ _ hnameLen]
  rfl

/-- A slot that was given nineteen letters A. -/
def usedSlot : EspParam := EspParam.zero.setString (ascii "note") (List.replicate 19 65)

theorem setString_reads_back_iff_usedSlot :
    ReadsBack (usedSlot.setString (ascii "note") (ascii "short")) (ascii "note") (ascii "short") :=
  (setString_reads_back_iff usedSlot (by decide) (by decide) (by decide) (by decide)).mpr
    (Or.inl (by decide))

/-- Sixteen letters B over nineteen letters A read back with three of the old letters. -/
theorem usedSlot_keeps_old_letters : ¬ ∀ (p : EspParam) (pName str : List Byte), (0 : Byte) ∉ pName →
    (0 : Byte) ∉ str → pName.length < 256 → str.length < 256 →
    ReadsBack (p.setString pName str) pName str := by
  intro hclaim
  have hread := (hclaim usedSlot (ascii "note") (List.replicate 16 66) (by decide) (by decide)
    (by decide) (by decide)).string
  rw [strText_setString_iff usedSlot _ (by decide) (by decide)] at hread
  rcases hread with hcleared | hold
  · exact absurd hcleared (by decide)
  · exact absurd hold (by decide)

end EspParam

/-- The 8-bit length cuts a text where its own length would. -/
def LengthKept (maxLen : Byte) (s : List Byte) : Prop :=
  s.length < 256 ∨ maxLen.toNat ≤ s.length % 256

instance (maxLen : Byte) (s : List Byte) : Decidable (LengthKept maxLen s) :=
  inferInstanceAs (Decidable (_ ∨ _))

/-- Two texts that a limit of `k` bytes cannot tell apart. -/
def SameStart (k : Nat) (s t : List Byte) : Prop :=
  k ≤ s.length ∧ k ≤ t.length ∧ s.take k = t.take k

namespace EspParam

theorem storedName_eq_take_iff {n : List Byte} :
    storedName n = n.take (paramNameLen - 1) ↔ LengthKept nameMaxLen n := take_clippedLen_iff

theorem storedString_eq_take_iff {s : List Byte} :
    storedString s = s.take (paramStringLen - 1) ↔ LengthKept stringMaxLen s := take_clippedLen_iff

/-- Texts with the same start are cut alike when both are cut at the limit. -/
private theorem cut_alike {maxLen : Byte} {s t : List Byte} (h : SameStart maxLen.toNat s t)
    (hs : LengthKept maxLen s) (ht : LengthKept maxLen t) :
    s.take (clippedLen maxLen s).toNat = t.take (clippedLen maxLen t).toNat := by
  obtain ⟨_, _, hstart⟩ := h
  rw [take_clippedLen_iff.mpr hs, take_clippedLen_iff.mpr ht, hstart]

theorem storedName_congr {n n' : List Byte} (h : SameStart (paramNameLen - 1) n n')
    (hn : LengthKept nameMaxLen n) (hn' : LengthKept nameMaxLen n') : storedName n = storedName n' :=
  cut_alike h hn hn'

theorem storedString_congr {s t : List Byte} (h : SameStart (paramStringLen - 1) s t)
    (hs : LengthKept stringMaxLen s) (ht : LengthKept stringMaxLen t) :
    storedString s = storedString t := cut_alike h hs ht

end EspParam

namespace AddCall

/-- The slot of a call depends on the stored bytes alone. -/
theorem slot_eq_of_stored {c d : AddCall} (hkind : c.slot.paramType = d.slot.paramType)
    (hname : EspParam.storedName c.name = EspParam.storedName d.name)
    (hnum : c.slot.numParam = d.slot.numParam) (hstr : c.slot.strParam = d.slot.strParam) :
    c.slot = d.slot := by
  have hnames : c.slot.paramName = d.slot.paramName := by rw [slot_paramName, slot_paramName, hname]
  rw [EspParam.mk.injEq]
  exact ⟨hkind, hnames, hnum, hstr⟩

end AddCall

namespace Represents
variable {tw : Nat} {cs : List AddCall} {p : EspPacket tw}

/-- With room left, an added string reads back as it was given, up to the arrays' limits, exactly
when the 8-bit lengths cut where they should. -/
theorem addString_reads_back_iff (hp : Represents cs p) (hroom : p.paramsCount.toNat < paramMaxNum)
    {pName str : List Byte} (hname : (0 : Byte) ∉ pName) (hstr : (0 : Byte) ∉ str) :
    ReadsBack (p.addString pName str).2.params[p.paramsCount.toNat] pName str ↔
      LengthKept EspParam.nameMaxLen pName ∧ LengthKept EspParam.stringMaxLen str := by
  have hslot : (p.addString pName str).2.params[p.paramsCount.toNat] = _ :=
    hp.added_slot (.string pName str) hroom
  have hread := AddCall.nameText_stored (c := .string pName str) hname
  have htext := AddCall.strText_slot (n := pName) hstr
  rw [hslot, ← EspParam.storedName_eq_take_iff, ← EspParam.storedString_eq_take_iff]
  constructor
  · rintro ⟨h₁, h₂⟩
    exact ⟨Except.ok.inj (hread.symm.trans h₁), Except.ok.inj (htext.symm.trans h₂)⟩
  · rintro ⟨h₁, h₂⟩
    exact ⟨h₁ ▸ hread, h₂ ▸ htext⟩

theorem addNumeric_reads_back_iff (hp : Represents cs p) (hroom : p.paramsCount.toNat < paramMaxNum)
    {pName : List Byte} (hname : (0 : Byte) ∉ pName) (val : F64) :
    (p.addNumeric pName val).2.params[p.paramsCount.toNat].nameText =
        .ok (pName.take (paramNameLen - 1)) ↔ LengthKept EspParam.nameMaxLen pName := by
  have hslot : (p.addNumeric pName val).2.params[p.paramsCount.toNat] = _ :=
    hp.added_slot (.numeric pName val) hroom
  have hread := AddCall.nameText_stored (c := .numeric pName val) hname
  rw [hslot, ← EspParam.storedName_eq_take_iff]
  exact ⟨fun h => Except.ok.inj (hread.symm.trans h), fun h => h ▸ hread⟩

/-- Add calls with the same slot leave the same packet. -/
theorem add_congr (hp : Represents cs p) {c d : AddCall} (h : c.slot = d.slot) : p.add c = p.add d := by
  rw [EspPacket.add_eq_addParam, EspPacket.add_eq_addParam]
  rcases Nat.lt_or_ge p.paramsCount.toNat paramMaxNum with hroom | hfull
  · have hfree : p.params[p.paramsCount.toNat] = EspParam.zero := hp.free_slot _ hroom hp.count.ge
    rw [EspPacket.addParam_room p _ hroom, EspPacket.addParam_room p _ hroom, hfree]
    change (true, { p with params := p.params.set _ c.slot, paramsCount := p.paramsCount + 1 }) = _
    rw [h]
    rfl
  · rw [EspPacket.addParam_full p _ hfull, EspPacket.addParam_full p _ hfull]

end Represents
variable {tw : Nat}

/-- Behind any builder calls: a text of any length is stored up to its limit exactly when its
length is below 256 or still reaches the limit modulo 256, and two such texts with the same start
are stored alike. -/
theorem overlong_text_cut_iff (p₀ : EspPacket tw) (r : EspRadio tw) (calls : List (BuilderCall tw))
    {pName str : List Byte} (hname : (0 : Byte) ∉ pName) (hstr : (0 : Byte) ∉ str) (val : F64) :
    let p := (BuilderCall.applyAll (p₀.erase, r) calls).1
    ∀ hroom : p.paramsCount.toNat < paramMaxNum,
      (ReadsBack (p.addString pName str).2.params[p.paramsCount.toNat] pName str ↔
        LengthKept EspParam.nameMaxLen pName ∧ LengthKept EspParam.stringMaxLen str) ∧
      ((p.addNumeric pName val).2.params[p.paramsCount.toNat].nameText =
          .ok (pName.take (paramNameLen - 1)) ↔ LengthKept EspParam.nameMaxLen pName) ∧
      (∀ pName', SameStart (paramNameLen - 1) pName pName' → LengthKept EspParam.nameMaxLen pName →
        LengthKept EspParam.nameMaxLen pName' →
        p.addString pName str = p.addString pName' str ∧
          p.addNumeric pName val = p.addNumeric pName' val) ∧
      ∀ str', SameStart (paramStringLen - 1) str str' → LengthKept EspParam.stringMaxLen str →
        LengthKept EspParam.stringMaxLen str' → p.addString pName str = p.addString pName str' := by
  intro p hroom
  have hp : Represents _ p := (Represents.erase p₀).applyAll r calls
  refine ⟨hp.addString_reads_back_iff hroom hname hstr, hp.addNumeric_reads_back_iff hroom hname val,
    ?_, ?_⟩
  · intro pName' hstart hkept hkept'
    have hstored := EspParam.storedName_congr hstart hkept hkept'
    constructor
    · exact hp.add_congr (c := .string pName str) (d := .string pName' str)
        (AddCall.slot_eq_of_stored rfl hstored rfl rfl)
    · exact hp.add_congr (c := .numeric pName val) (d := .numeric pName' val)
        (AddCall.slot_eq_of_stored rfl hstored rfl rfl)
  · intro str' hstart hkept hkept'
    refine hp.add_congr (c := .string pName str) (d := .string pName str')
      (AddCall.slot_eq_of_stored rfl rfl rfl ?_)
    rw [AddCall.slot_strParam_string, AddCall.slot_strParam_string,
      EspParam.storedString_congr hstart hkept hkept']

private theorem letters_nulFree (k : Nat) : (0 : Byte) ∉ List.replicate k (65 : Byte) :=
  fun h => absurd (List.eq_of_mem_replicate h) (by decide)

private theorem erased_room : (EspPacket.zero 4).erase.paramsCount.toNat < paramMaxNum := by
  rw [EspPacket.erase_eq]
  decide

/-- Three hundred letters are cut after nineteen of them. -/
theorem overlong_text_cut_iff_threeHundred : ∃ _ : (EspPacket.zero 4).erase.paramsCount.toNat < paramMaxNum,
    ReadsBack ((EspPacket.zero 4).erase.addString (ascii "note") (List.replicate 300 65)).2.params[
      (EspPacket.zero 4).erase.paramsCount.toNat] (ascii "note") (List.replicate 300 65) := by
  have hname : (0 : Byte) ∉ ascii "note" := by decide
  have h := (overlong_text_cut_iff (EspPacket.zero 4) (.boot 4) [] hname (letters_nulFree 300) ⟨0⟩
    erased_room).1
  exact ⟨erased_room, h.mpr ⟨Or.inl (by decide), Or.inr (by rw [List.length_replicate]; decide)⟩⟩

/-- Of 256 letters not one is stored. -/
theorem text_of_256_letters_lost : ¬ ∀ (p₀ : EspPacket 4) (r : EspRadio 4)
    (calls : List (BuilderCall 4)) (pName str : List Byte), (0 : Byte) ∉ pName → (0 : Byte) ∉ str →
    ∀ hroom : (BuilderCall.applyAll (p₀.erase, r) calls).1.paramsCount.toNat < paramMaxNum,
      ReadsBack ((BuilderCall.applyAll (p₀.erase, r) calls).1.addString pName str).2.params[
        (BuilderCall.applyAll (p₀.erase, r) calls).1.paramsCount.toNat] pName str := by
  intro hclaim
  have hread := hclaim (.zero 4) (.boot 4) [] (ascii "note") (List.replicate 256 65) (by decide)
    (letters_nulFree 256) erased_room
  obtain ⟨_, hkept⟩ := ((Represents.erase (.zero 4)).addString_reads_back_iff erased_room (by decide)
    (letters_nulFree 256)).mp hread
  rw [LengthKept, List.length_replicate] at hkept
  exact absurd hkept (by decide)

end EspNowGateway.Radio
