import Mathlib.Data.List.Basic
import Mathlib.Logic.Function.Basic

/-! Maps that are filled by writing one key after the other. Each key holds its last write, so
writers of different keys do not see how their writes are interleaved. -/
namespace LastWrite

variable {ω κ ν : Type} [DecidableEq κ] (key : ω → κ) (value : ω → ν)

def writeAll (m : κ → Option ν) (ws : List ω) : κ → Option ν :=
  ws.foldl (fun m w => Function.update m (key w) (some (value w))) m

@[simp] theorem writeAll_nil (m : κ → Option ν) : writeAll key value m [] = m := rfl

@[simp] theorem writeAll_cons (m : κ → Option ν) (w : ω) (ws : List ω) :
    writeAll key value m (w :: ws) =
      writeAll key value (Function.update m (key w) (some (value w))) ws := rfl

theorem writeAll_append (m : κ → Option ν) (ws vs : List ω) :
    writeAll key value m (ws ++ vs) = writeAll key value (writeAll key value m ws) vs :=
  List.foldl_append

/-- A key holds its last write, or what it held before. -/
theorem writeAll_apply (m : κ → Option ν) (ws : List ω) (k : κ) :
    writeAll key value m ws k =
      ((ws.filter fun w => key w = k).getLast?.map value).or (m k) := by
  induction ws generalizing m with
  | nil => rfl
  | cons w ws ih =>
    rw [writeAll_cons, ih]
    by_cases hk : key w = k
    · subst hk
      rw [List.filter_cons_of_pos (by simp), List.getLast?_cons, Function.update_self]
      cases (ws.filter fun v => key v = key w).getLast? <;> rfl
    · rw [List.filter_cons_of_neg (by simpa using hk), Function.update_of_ne (Ne.symm hk)]

/-- Maps are alike where the writes to each key are alike. -/
theorem writeAll_congr {m m' : κ → Option ν} {ws vs : List ω} {k : κ} (hm : m k = m' k)
    (h : (ws.filter fun w => key w = k) = vs.filter fun w => key w = k) :
    writeAll key value m ws k = writeAll key value m' vs k := by
  rw [writeAll_apply, writeAll_apply, hm, h]

/-- A set of keys can be read off the writes to them. -/
theorem writeAll_filter (P : κ → Bool) (m : κ → Option ν) (ws : List ω) {k : κ} (hk : P k = true) :
    writeAll key value m (ws.filter fun w => P (key w)) k = writeAll key value m ws k := by
  apply writeAll_congr key value rfl
  rw [List.filter_filter]
  refine List.filter_congr fun w _ => ?_
  by_cases hw : key w = k
  · simp [hw, hk]
  · simp [hw]

/-- Two interleavings of the writes to `P` with the other writes leave the same map. -/
theorem writeAll_interleave (P : κ → Bool) (m : κ → Option ν) {ws vs : List ω}
    (hin : (ws.filter fun w => P (key w)) = vs.filter fun w => P (key w))
    (hout : (ws.filter fun w => !P (key w)) = vs.filter fun w => !P (key w)) :
    writeAll key value m ws = writeAll key value m vs := by
  funext k
  cases hk : P k with
  | true => rw [← writeAll_filter key value P m ws hk, hin, writeAll_filter key value P m vs hk]
  | false =>
    have hk' : (fun k => !P k) k = true := by simp [hk]
    rw [← writeAll_filter key value (fun k => !P k) m ws hk', hout,
      writeAll_filter key value (fun k => !P k) m vs hk']

/-- Writes whose keys are all written again leave nothing behind. -/
theorem writeAll_overwritten (m : κ → Option ν) {ws vs : List ω}
    (h : ∀ w ∈ ws, ∃ v ∈ vs, key v = key w) :
    writeAll key value m (ws ++ vs) = writeAll key value m vs := by
  funext k
  rw [writeAll_apply, writeAll_apply, List.filter_append]
  by_cases hk : (vs.filter fun v => key v = k) = []
  · have hws : (ws.filter fun w => key w = k) = [] := by
      rw [List.filter_eq_nil_iff] at hk ⊢
      intro w hw hkey
      obtain ⟨v, hv, hvw⟩ := h w hw
      exact hk v hv (by rw [hvw]; exact hkey)
    rw [hws, List.nil_append]
  · rw [List.getLast?_append_of_ne_nil _ hk]

end LastWrite
