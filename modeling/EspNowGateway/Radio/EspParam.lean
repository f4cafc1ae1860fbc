import EspNowGateway.Foundations.BinaryFloat
import EspNowGateway.Foundations.CArray

/-! One parameter slot of a packet: its packed memory, its setters and its printed line.
Texts are the bytes of an Arduino `String`; a slot may hold any bytes at all. -/
namespace EspNowGateway.Radio
open ByteLayout BinaryFloat CArray

abbrev F32 := Binary binary32
abbrev F64 := Binary binary64

abbrev paramMaxNum : Nat := 4
abbrev paramNameLen : Nat := 16
abbrev paramStringLen : Nat := 20

def paramNoVal16 : Nat := 0xffff
def paramNoVal32 : Nat := 0xffffffff

inductive ParamType where
  | ptNone
  | ptNumeric
  | ptString
  deriving DecidableEq, Repr

/-- The enumeration is a 32-bit word in memory; a received word may be none of the three. -/
def ParamType.tag : ParamType → BitVec 32
  | .ptNone => 0
  | .ptNumeric => 1
  | .ptString => 2

structure EspParam where
  paramType : BitVec 32
  paramName : Vector Byte paramNameLen
  numParam : F32
  strParam : Vector Byte paramStringLen
  deriving DecidableEq

/-- An access of the code outside its array: an index into `params`, or a string read that
finds no terminator. -/
inductive Fault where
  | paramIndex (i : Nat)
  | paramName
  | strParam
  | nullQueue
  deriving DecidableEq, Repr

def floatLayout : Layout F32 4 where
  toFun x := word 4 x.bits
  invFun v := ⟨(word 4).symm v⟩
  left_inv x := by
    cases x
    exact congrArg Binary.mk ((word 4).symm_apply_apply _)
  right_inv v := (word 4).apply_symm_apply v

namespace EspParam

abbrev sizeof : Nat := 4 + (paramNameLen + (4 + paramStringLen))

/-- The packed slot, field after field. -/
def layout : Layout EspParam sizeof where
  toFun p := append (word 4) (append (bytes paramNameLen) (append floatLayout (bytes paramStringLen)))
    (p.paramType, p.paramName, p.numParam, p.strParam)
  invFun v :=
    let f := (append (word 4) (append (bytes paramNameLen)
      (append floatLayout (bytes paramStringLen)))).symm v
    ⟨f.1, f.2.1, f.2.2.1, f.2.2.2⟩
  left_inv p := by simp only [Equiv.symm_apply_apply]
  right_inv v := by simp only [Prod.mk.eta, Equiv.apply_symm_apply]

/-- `byte len = s.length(); if (len > maxLen) len = maxLen;` with the length cut to 8 bits. -/
def clippedLen (maxLen : Byte) (s : List Byte) : Byte :=
  let len : Byte := BitVec.ofNat 8 s.length
  if maxLen < len then maxLen else len

def nameMaxLen : Byte := BitVec.ofNat 8 (paramNameLen - 1)
def stringMaxLen : Byte := BitVec.ofNat 8 (paramStringLen - 1)

def setName (p : EspParam) (pName : List Byte) : EspParam :=
  let nLen := clippedLen nameMaxLen pName
  { p with paramName := memcpy (memset p.paramName 0 paramNameLen) pName nLen.toNat }

/-- Only the first `paramNameLen` bytes of the string array are cleared before the copy. -/
def setString (p : EspParam) (pName str : List Byte) : EspParam :=
  let pLen := clippedLen stringMaxLen str
  let q := { p with paramType := ParamType.ptString.tag }.setName pName
  { q with strParam := memcpy (memset q.strParam 0 paramNameLen) str pLen.toNat }

def setNumeric (p : EspParam) (pName : List Byte) (val : F64) : EspParam :=
  let q := { p with paramType := ParamType.ptNumeric.tag }.setName pName
  { q with numParam := val.convert binary32 }

/-- `String(paramName)`. -/
def nameText (p : EspParam) : Except Fault (List Byte) :=
  match text p.paramName with
  | some t => .ok t
  | none => .error .paramName

/-- `String(strParam)`. -/
def strText (p : EspParam) : Except Fault (List Byte) :=
  match text p.strParam with
  | some t => .ok t
  | none => .error .strParam

inductive PrintedValue where
  | numeric (v : F32)
  | string (t : List Byte)
  | notAvailable
  | blank
  deriving DecidableEq

structure PrintedLine where
  num : Option Int
  name : List Byte
  value : PrintedValue
  deriving DecidableEq

def print (p : EspParam) (num : Int) : Except Fault PrintedLine := do
  let name ← p.nameText
  let value ←
    if p.paramType = ParamType.ptNumeric.tag then pure (PrintedValue.numeric p.numParam)
    else if p.paramType = ParamType.ptString.tag then PrintedValue.string <$> p.strText
    else if p.paramType = ParamType.ptNone.tag then pure PrintedValue.notAvailable
    else pure PrintedValue.blank
  pure ⟨if 0 ≤ num then some num else none, name, value⟩

/-- The bytes of an unused slot. -/
def zero : EspParam := ⟨0, Vector.replicate _ 0, ⟨0⟩, Vector.replicate _ 0⟩

/-- The length that decides is the one cut to 8 bits. -/
theorem clippedLen_toNat (maxLen : Byte) (s : List Byte) :
    (clippedLen maxLen s).toNat = min maxLen.toNat (s.length % 256) := by
  have hlen : (BitVec.ofNat 8 s.length).toNat = s.length % 256 := BitVec.toNat_ofNat _ _
  simp only [clippedLen]
  split
  · rename_i h
    rw [min_eq_left (hlen ▸ (BitVec.lt_def.mp h).le)]
  · rename_i h
    rw [min_eq_right (hlen ▸ BitVec.le_def.mp (BitVec.not_lt.mp h)), hlen]

theorem clippedLen_le (maxLen : Byte) (s : List Byte) :
    (clippedLen maxLen s).toNat ≤ maxLen.toNat := by
  rw [clippedLen_toNat]
  exact min_le_left _ _

/-- The 8-bit length cuts like the real one when there is nothing to cut off the length, or when
what is left of it still reaches the limit. -/
theorem take_clippedLen_iff {maxLen : Byte} {s : List Byte} :
    s.take (clippedLen maxLen s).toNat = s.take maxLen.toNat ↔
      s.length < 256 ∨ maxLen.toNat ≤ s.length % 256 := by
  have hmax : maxLen.toNat < 256 := maxLen.isLt
  rw [List.take_eq_take_iff, clippedLen_toNat]
  omega

/-- Below 256 bytes the 8-bit length is the real one. -/
theorem take_clippedLen (maxLen : Byte) (s : List Byte) (h : s.length < 256) :
    s.take (clippedLen maxLen s).toNat = s.take maxLen.toNat := take_clippedLen_iff.mpr (Or.inl h)

/-- The bytes of a name that `setName` copies. -/
def storedName (pName : List Byte) : List Byte := pName.take (clippedLen nameMaxLen pName).toNat

/-- The bytes of a text that `setString` copies. -/
def storedString (str : List Byte) : List Byte := str.take (clippedLen stringMaxLen str).toNat

theorem storedName_length_lt (n : List Byte) : (storedName n).length < paramNameLen := by
  have hle := clippedLen_le nameMaxLen n
  have h15 : nameMaxLen.toNat = 15 := rfl
  rw [storedName, List.length_take]
  exact lt_of_le_of_lt (min_le_left _ _) (by rw [h15] at hle; exact Nat.lt_succ_of_le hle)

theorem storedString_length_lt (s : List Byte) : (storedString s).length < paramStringLen := by
  have hle := clippedLen_le stringMaxLen s
  have h19 : stringMaxLen.toNat = 19 := rfl
  rw [storedString, List.length_take]
  exact lt_of_le_of_lt (min_le_left _ _) (by rw [h19] at hle; exact Nat.lt_succ_of_le hle)

theorem storedName_nulFree {n : List Byte} (hz : (0 : Byte) ∉ n) : (0 : Byte) ∉ storedName n :=
  fun h => hz (List.mem_of_mem_take h)

theorem storedString_nulFree {s : List Byte} (hz : (0 : Byte) ∉ s) : (0 : Byte) ∉ storedString s :=
  fun h => hz (List.mem_of_mem_take h)

/-- A name that fits is stored whole. -/
theorem storedName_of_lt (n : List Byte) (h : n.length < paramNameLen) : storedName n = n := by
  have h15 : nameMaxLen.toNat = 15 := rfl
  have h16 : n.length < 16 := h
  rw [storedName, take_clippedLen _ _ (by omega), h15, List.take_of_length_le (by omega)]

/-- A text that fits is stored whole. -/
theorem storedString_of_lt (s : List Byte) (h : s.length < paramStringLen) :
    storedString s = s := by
  have h19 : stringMaxLen.toNat = 19 := rfl
  have h20 : s.length < 20 := h
  rw [storedString, take_clippedLen _ _ (by omega), h19, List.take_of_length_le (by omega)]

/-- A cut text is never taken for a shorter one. -/
theorem storedString_eq_iff {s target : List Byte} (h : s.length < 256)
    (ht : target.length < paramStringLen - 1) : storedString s = target ↔ s = target := by
  have h19 : stringMaxLen.toNat = 19 := rfl
  have ht19 : target.length < 19 := ht
  rw [storedString, take_clippedLen _ _ h, h19]
  constructor
  · rintro rfl
    rw [List.length_take] at ht19
    exact (List.take_of_length_le (by omega)).symm
  · rintro rfl
    exact List.take_of_length_le (by omega)

/-- The stored name never depends on what the slot held before. -/
theorem setName_paramName (p : EspParam) (pName : List Byte) :
    (p.setName pName).paramName = padded paramNameLen (storedName pName) := by
  rw [setName, memset_all]
  exact memcpy_of_zero_tail _ _ _ (fun i hi _ => by simp)

@[simp] theorem setString_paramName (p : EspParam) (n s : List Byte) :
    (p.setString n s).paramName = padded paramNameLen (storedName n) :=
  setName_paramName { p with paramType := ParamType.ptString.tag } n

@[simp] theorem setNumeric_paramName (p : EspParam) (n : List Byte) (v : F64) :
    (p.setNumeric n v).paramName = padded paramNameLen (storedName n) :=
  setName_paramName { p with paramType := ParamType.ptNumeric.tag } n

/-- Over a cleared string array the four bytes that `setString` does not clear are zero too. -/
theorem setString_strParam (p : EspParam) (n s : List Byte)
    (hzero : p.strParam = Vector.replicate _ 0) :
    (p.setString n s).strParam = padded paramStringLen (storedString s) := by
  change memcpy (memset p.strParam 0 paramNameLen) s _ = _
  apply memcpy_of_zero_tail
  intro i hi _
  rw [getElem_memset, hzero, Vector.getElem_replicate, ite_self]

theorem nameText_ok_iff (p : EspParam) : (∃ t, p.nameText = .ok t) ↔ Closed p.paramName := by
  rw [← text_eq_some_iff_closed, nameText]
  cases text p.paramName <;> simp

theorem strText_ok_iff (p : EspParam) : (∃ t, p.strText = .ok t) ↔ Closed p.strParam := by
  rw [← text_eq_some_iff_closed, strText]
  cases text p.strParam <;> simp

/-- Printing a slot reads the name, and the string of a string slot. -/
theorem print_ok_iff (p : EspParam) (num : Int) :
    (∃ l, p.print num = .ok l) ↔
      Closed p.paramName ∧ (p.paramType = ParamType.ptString.tag → Closed p.strParam) := by
  rw [← nameText_ok_iff, ← strText_ok_iff]
  rw [print]
  cases hn : p.nameText with
  | error e => simp [bind, Except.bind]
  | ok name =>
    by_cases hs : p.paramType = ParamType.ptString.tag
    · have hnum : ParamType.ptString.tag ≠ ParamType.ptNumeric.tag := by decide
      cases p.strText <;>
        simp [bind, Except.bind, hs, hnum, pure, Except.pure, Functor.map, Except.map]
    · simp only [hs, if_false, false_implies, and_true]
      split_ifs <;> simp [bind, Except.bind, pure, Except.pure]

end EspParam
end EspNowGateway.Radio
