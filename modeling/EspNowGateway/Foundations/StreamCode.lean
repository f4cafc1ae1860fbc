import Mathlib.Data.List.Basic

/-! Self-delimiting codes: the encoding of a value tells where it ends, so values can follow each
other in a stream without separators and a stream has one reading only. -/
namespace StreamCode

structure Code (α β : Type) where
  encode : α → List β
  decode : List β → Option (α × List β)
  Valid : α → Prop
  encode_ne_nil : ∀ a, encode a ≠ []
  decode_encode : ∀ a, Valid a → ∀ rest, decode (encode a ++ rest) = some (a, rest)

namespace Code
variable {α β : Type} (c : Code α β)

def encodeAll (as : List α) : List β := as.flatMap c.encode

/-- Reading at most `k` values, to the end of the stream. -/
def decodeAll : Nat → List β → Option (List α)
  | _, [] => some []
  | 0, _ :: _ => none
  | k+1, b :: bs => (c.decode (b :: bs)).bind fun r => (decodeAll k r.2).map (r.1 :: ·)

/-- All values of a stream; there are no more of them than elements. -/
def readAll (bs : List β) : Option (List α) := c.decodeAll bs.length bs

/-- A stream of valid values is read back as these values. -/
theorem decodeAll_encodeAll (as : List α) (h : ∀ a ∈ as, c.Valid a) (k : Nat) (hk : as.length ≤ k) :
    c.decodeAll k (c.encodeAll as) = some as := by
  induction as generalizing k with
  | nil =>
    cases k
    · rfl
    · rfl
  | cons a as ih =>
    obtain ⟨ha, has⟩ := List.forall_mem_cons.mp h
    cases k with
    | zero => simp at hk
    | succ k =>
      have hread := c.decode_encode a ha (c.encodeAll as)
      have hcons : c.encodeAll (a :: as) = c.encode a ++ c.encodeAll as := rfl
      obtain ⟨b, bs, hb⟩ := List.exists_cons_of_ne_nil (c.encode_ne_nil a)
      rw [hcons]
      rw [hb, List.cons_append] at hread ⊢
      rw [decodeAll, hread, Option.bind_some, ih has k (by simpa using hk)]
      rfl

theorem length_le_encodeAll (as : List α) : as.length ≤ (c.encodeAll as).length := by
  induction as with
  | nil => exact Nat.le_refl 0
  | cons a as ih =>
    have hpos := List.length_pos_of_ne_nil (c.encode_ne_nil a)
    have hcons : c.encodeAll (a :: as) = c.encode a ++ c.encodeAll as := rfl
    rw [hcons, List.length_append, List.length_cons]
    omega

theorem readAll_encodeAll (as : List α) (h : ∀ a ∈ as, c.Valid a) :
    c.readAll (c.encodeAll as) = some as :=
  c.decodeAll_encodeAll as h _ (c.length_le_encodeAll as)

end Code
end StreamCode
