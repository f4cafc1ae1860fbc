import Mathlib.Data.List.Chain
import Mathlib.Data.BitVec

/-! A value that expires by a wrapping clock. A polling loop clears the register when its
`w`-bit time stamp is older than a limit and then possibly stores a new value. Against
unbounded real time the register holds exactly the latest value that is young enough, however
often the clock has wrapped, as long as the loop polls more often than the clock can hide. -/
namespace ExpiringRegister

/-- A `w`-bit millisecond counter at real time `t`. -/
abbrev clock (w : Nat) (t : Nat) : BitVec w := BitVec.ofNat w t

structure Register (α : Type) (w : Nat) where
  value : Option α
  stamp : BitVec w

/-- One turn of the loop: the time of its check and the value it stored afterwards. -/
structure Round (α : Type) where
  check : Nat
  arrival : Option (Nat × α)
  ordered : ∀ a ∈ arrival, check ≤ a.1

variable {α : Type} {w : Nat}

def expire (limit t : Nat) (r : Register α w) : Register α w :=
  if limit < (clock w t - r.stamp).toNat then { r with value := none } else r

def poll (limit : Nat) (r : Register α w) (round : Round α) : Register α w :=
  match round.arrival with
  | none => expire limit round.check r
  | some (t, v) => ⟨some v, clock w t⟩

/-- The last stored value of a run, or `last` when the run stored none. -/
def latest (last : Option (Nat × α)) (rounds : List (Round α)) : Option (Nat × α) :=
  rounds.foldl (fun last round => round.arrival.or last) last

/-- A value is in force at real time `t` when it was stored at most `limit` before. -/
def inForce (limit t : Nat) (last : Option (Nat × α)) : Option α :=
  last.bind fun a => if t - a.1 ≤ limit then some a.2 else none

/-- Real time does not run backwards, and two checks are closer than the clock's blind spot. -/
def Follows (w limit : Nat) (r next : Round α) : Prop :=
  (∀ a ∈ r.arrival, a.1 ≤ next.check) ∧
    r.check ≤ next.check ∧ next.check - r.check < 2^w - limit

/-- The turn that only checks. -/
def Round.checkOnly (t : Nat) : Round α := ⟨t, none, by simp⟩

/-- After the check at `c`, the register agrees with the log: a present value was not yet too
old at `c`, an absent one already was. -/
def Agrees (limit c : Nat) (last : Option (Nat × α)) (r : Register α w) : Prop :=
  match last with
  | none => r.value = none
  | some (a, v) =>
    (r.value = some v ∧ r.stamp = clock w a ∧ (a ≤ c → c - a ≤ limit)) ∨
      (r.value = none ∧ a ≤ c ∧ limit < c - a)

/-- Below one turn of the clock the wrapped difference is the real one. -/
theorem clock_sub_toNat {a t : Nat} (hat : a ≤ t) (hlt : t - a < 2^w) :
    (clock w t - clock w a).toNat = t - a := by
  have he : clock w t - clock w a = BitVec.ofNat w (t - a) := by
    have hs : clock w t = BitVec.ofNat w (t - a) + clock w a := by
      rw [← BitVec.ofNat_add, Nat.sub_add_cancel hat]
    rw [hs, BitVec.add_sub_cancel]
  rw [he, BitVec.toNat_ofNat, Nat.mod_eq_of_lt hlt]

/-- One check carries the agreement over, whatever wrapped in between. -/
theorem Agrees.expire {limit c t : Nat} {last : Option (Nat × α)} {r : Register α w}
    (h : Agrees limit c last r) (hlast : ∀ a ∈ last, a.1 ≤ t) (hct : c ≤ t)
    (hgap : t - c < 2^w - limit) : Agrees limit t last (expire limit t r) := by
  cases last with
  | none =>
    have hn : r.value = none := h
    show (ExpiringRegister.expire limit t r).value = none
    unfold ExpiringRegister.expire
    split
    · rfl
    · exact hn
  | some p =>
    obtain ⟨a, v⟩ := p
    have hat : a ≤ t := hlast (a, v) rfl
    rcases h with ⟨hv, hs, hage⟩ | ⟨hv, hac, hold⟩
    · have hreal : (clock w t - r.stamp).toNat = t - a := by
        rw [hs]
        apply clock_sub_toNat hat
        by_cases hac : a ≤ c
        · have := hage hac
          omega
        · omega
      unfold ExpiringRegister.expire
      rw [hreal]
      by_cases hx : limit < t - a
      · rw [if_pos hx]
        exact Or.inr ⟨rfl, hat, hx⟩
      · rw [if_neg hx]
        exact Or.inl ⟨hv, hs, fun _ => by omega⟩
    · refine Or.inr ⟨?_, hat, by omega⟩
      unfold ExpiringRegister.expire
      split
      · rfl
      · exact hv

/-- One turn of the loop keeps the agreement. -/
theorem Agrees.poll {limit c : Nat} {last : Option (Nat × α)} {r : Register α w}
    {round : Round α} (h : Agrees limit c last r) (hlast : ∀ a ∈ last, a.1 ≤ round.check)
    (hct : c ≤ round.check) (hgap : round.check - c < 2^w - limit) :
    Agrees limit round.check (round.arrival.or last) (poll limit r round) := by
  unfold ExpiringRegister.poll
  cases ha : round.arrival with
  | none => simpa using h.expire hlast hct hgap
  | some p =>
    have hp := round.ordered p ha
    exact Or.inl ⟨rfl, rfl, fun hle => by omega⟩

private theorem Follows.seen {limit : Nat} {r next : Round α} {last : Option (Nat × α)}
    (h : Follows w limit r next) (hlast : ∀ a ∈ last, a.1 ≤ r.check) :
    ∀ a ∈ r.arrival.or last, a.1 ≤ next.check := by
  intro a ha
  cases hr : r.arrival with
  | none =>
    rw [hr, Option.none_or] at ha
    exact (hlast a ha).trans h.2.1
  | some b =>
    rw [hr, Option.some_or] at ha
    exact Option.mem_some.mp ha ▸ h.1 b hr

private theorem agrees_rounds {limit : Nat} (rounds : List (Round α)) (first : Round α)
    (last : Option (Nat × α)) (r : Register α w) (t : Nat)
    (h : Agrees limit first.check (first.arrival.or last) r)
    (hlast : ∀ a ∈ last, a.1 ≤ first.check)
    (hchain : List.IsChain (Follows w limit) (first :: rounds ++ [.checkOnly t])) :
    Agrees limit t (latest (first.arrival.or last) rounds)
      (expire limit t (rounds.foldl (poll limit) r)) ∧
    ∀ a ∈ latest (first.arrival.or last) rounds, a.1 ≤ t := by
  induction rounds generalizing first last r with
  | nil =>
    have hf := (List.isChain_cons_cons.mp hchain).1
    have hseen := hf.seen hlast
    exact ⟨h.expire hseen hf.2.1 hf.2.2, hseen⟩
  | cons next rounds ih =>
    obtain ⟨hf, hrest⟩ := List.isChain_cons_cons.mp hchain
    have hseen := hf.seen hlast
    exact ih next (first.arrival.or last) (poll limit r next) (h.poll hseen hf.2.1 hf.2.2) hseen hrest

private theorem Agrees.value {limit t : Nat} {last : Option (Nat × α)} {r : Register α w}
    (h : Agrees limit t last r) (hlast : ∀ a ∈ last, a.1 ≤ t) : r.value = inForce limit t last := by
  cases last with
  | none => exact h
  | some p =>
    have hat := hlast p rfl
    rcases h with ⟨hv, _, hage⟩ | ⟨hv, _, hold⟩
    · simp only [hv, inForce, Option.bind_some, if_pos (hage hat)]
    · simp only [hv, inForce, Option.bind_some, if_neg (Nat.not_le_of_lt hold)]

/-- Right after a check the register holds exactly the value in force: the wrapping comparison
neither expires a young value nor revives an old one. -/
theorem expire_value {limit : Nat} (rounds : List (Round α)) (t : Nat) (r : Register α w)
    (hr : r.value = none)
    (hchain : List.IsChain (Follows w limit) (rounds ++ [.checkOnly t])) :
    (expire limit t (rounds.foldl (poll limit) r)).value = inForce limit t (latest none rounds) := by
  cases rounds with
  | nil =>
    change (expire limit t r).value = none
    unfold expire
    split
    · rfl
    · exact hr
  | cons first rounds =>
    have hw : limit < 2^w := by
      obtain ⟨next, rest, hnext⟩ : ∃ next rest, rounds ++ [Round.checkOnly t] = next :: rest :=
        List.exists_cons_of_ne_nil (by simp)
      have hgap := hchain
      rw [List.cons_append, hnext, List.isChain_cons_cons] at hgap
      have := hgap.1.2.2
      omega
    have hstart : Agrees limit first.check none r := hr
    have hfirst := hstart.poll (by simp) le_rfl (by omega)
    obtain ⟨h, hseen⟩ := agrees_rounds rounds first none _ t hfirst (by simp) hchain
    exact h.value hseen

/-- One turn is over when the other begins. -/
private def Before (r next : Round α) : Prop :=
  (∀ a ∈ r.arrival, a.1 ≤ next.check) ∧ r.check ≤ next.check

private instance : IsTrans (Round α) Before where
  trans _ _ _ hrs hsu := ⟨fun a ha => (hrs.1 a ha).trans hsu.2, hrs.2.trans hsu.2⟩

/-- Values that a run stored later are not older. -/
private theorem latest_newest {rounds : List (Round α)}
    (h : rounds.Pairwise fun r next => ∀ a ∈ r.arrival, a.1 ≤ next.check) :
    ∀ round ∈ rounds, ∀ a ∈ round.arrival, ∃ b ∈ latest none rounds, a.1 ≤ b.1 := by
  induction rounds using List.reverseRecOn with
  | nil => simp
  | append_singleton rounds last ih =>
    obtain ⟨hinit, _, hlast⟩ := List.pairwise_append.mp h
    intro round hmem a ha
    rw [latest, List.foldl_append, List.foldl_cons, List.foldl_nil]
    cases harr : last.arrival with
    | none =>
      rw [Option.none_or]
      rcases List.mem_append.mp hmem with hmem | hmem
      · exact ih hinit round hmem a ha
      · rw [List.mem_singleton.mp hmem, harr] at ha
        cases ha
    | some b =>
      refine ⟨b, rfl, ?_⟩
      rcases List.mem_append.mp hmem with hmem | hmem
      · exact (hlast round hmem last (by simp) a ha).trans (last.ordered b harr)
      · rw [List.mem_singleton.mp hmem, harr] at ha
        exact (Option.mem_some.mp ha) ▸ le_rfl

private theorem latest_mem {rounds : List (Round α)} {a : Nat × α} (ha : a ∈ latest none rounds) :
    ∃ round ∈ rounds, a ∈ round.arrival := by
  induction rounds using List.reverseRecOn with
  | nil => cases ha
  | append_singleton rounds last ih =>
    rw [latest, List.foldl_append, List.foldl_cons, List.foldl_nil] at ha
    cases harr : last.arrival with
    | none =>
      rw [harr, Option.none_or] at ha
      obtain ⟨round, hmem, h⟩ := ih ha
      exact ⟨round, by simp [hmem], h⟩
    | some b =>
      rw [harr] at ha
      exact ⟨last, by simp, harr.trans ha⟩

/-- A value is in force exactly when some value was stored at most `limit` before. -/
theorem inForce_isSome_iff {limit t : Nat} {rounds : List (Round α)}
    (hchain : List.IsChain (Follows w limit) (rounds ++ [.checkOnly t])) :
    (inForce limit t (latest none rounds)).isSome ↔
      ∃ round ∈ rounds, ∃ a ∈ round.arrival, t - a.1 ≤ limit := by
  have hpair : rounds.Pairwise fun r next => ∀ a ∈ r.arrival, a.1 ≤ next.check := by
    have hbefore : List.IsChain Before (rounds ++ [.checkOnly t]) :=
      hchain.imp fun r next h => ⟨h.1, h.2.1⟩
    exact (List.pairwise_append.mp hbefore.pairwise).1.imp fun h => h.1
  constructor
  · intro h
    cases hl : latest none rounds with
    | none =>
      rw [hl] at h
      cases h
    | some a =>
      obtain ⟨round, hmem, ha⟩ := latest_mem (a := a) hl
      have hyoung : t ≤ limit + a.1 := by simpa [hl, inForce] using h
      exact ⟨round, hmem, a, ha, by omega⟩
  · rintro ⟨round, hmem, a, ha, hyoung⟩
    obtain ⟨b, hb, hab⟩ := latest_newest hpair round hmem a ha
    rw [Option.mem_def.mp hb, inForce, Option.bind_some, if_pos (by omega)]
    rfl

end ExpiringRegister
