import Mathlib.Algebra.Order.Ring.Int
import Mathlib.Data.Int.DivMod
import Mathlib.Data.List.Perm.Subperm
import Mathlib.Tactic.Ring

/-!
# Fixed windows

A limiter cuts time into windows of one length, counts the requests of each key, and allows a
request while the count of its key is within its limit. A key names its window, so a count starts
anew with every window. `Counted` is what the log of a limiter has to be like; how it stores the
counts, and when it forgets them, is its own affair.
-/

namespace LedgerSync.Lib

/-! ## Windows -/

/-- The start of the window that a time lies in. The quotient is truncated, so the window at zero
reaches to both sides. -/
def windowStart (length time : ℤ) : ℤ := time.tdiv length * length

section Windows

variable {length t u : ℤ}

/-- A window starts at the last multiple of its length. -/
theorem windowStart_of_nonneg (h : 0 ≤ t) : windowStart length t = t / length * length := by
  rw [windowStart, Int.tdiv_eq_ediv_of_nonneg h]

/-- A window is over after its length. -/
theorem lt_windowStart_add (hlength : 0 < length) (t : ℤ) : t < windowStart length t + length := by
  have hlt := Int.lt_tdiv_add_one_mul_self t hlength
  rwa [add_mul, one_mul] at hlt

/-- A window does not start after its times, unless it is the one at zero. -/
theorem windowStart_le (hlength : 0 < length) (t : ℤ) : windowStart length t ≤ max t 0 := by
  rcases le_total 0 t with ht | ht
  · rw [windowStart_of_nonneg ht]
    exact (Int.ediv_mul_le t hlength.ne').trans (le_max_left t 0)
  · have hquotient : t.tdiv length ≤ 0 := by
      have hmono := Int.tdiv_le_tdiv hlength ht
      rwa [Int.zero_tdiv] at hmono
    exact (mul_nonpos_of_nonpos_of_nonneg hquotient hlength.le).trans (le_max_right t 0)

/-- One length later, at most one more window has begun. -/
theorem tdiv_add_length_le (hlength : 0 < length) (t : ℤ) :
    (t + length).tdiv length ≤ t.tdiv length + 1 := by
  have hshift : (t + length) / length = t / length + 1 := by
    simpa using Int.add_mul_ediv_right t 1 hlength.ne'
  rw [Int.tdiv_eq_ediv, Int.tdiv_eq_ediv, hshift, Int.sign_eq_one_of_pos hlength]
  split_ifs with hlater hnow hnow
  · omega
  · omega
  · -- A time that is not truncated upwards is not truncated upwards later either.
    obtain ht | hdvd := hnow
    · exact absurd (.inl (by omega)) hlater
    · exact absurd (.inr (Int.dvd_add hdvd (Int.dvd_refl _))) hlater
  · omega

/-- Times less than one length apart lie in the same window or in adjacent ones. -/
theorem windowStart_near (hlength : 0 < length) (htu : t ≤ u) (hut : u < t + length) :
    windowStart length u = windowStart length t ∨
      windowStart length u = windowStart length t + length := by
  have hmono : t.tdiv length ≤ u.tdiv length := Int.tdiv_le_tdiv hlength htu
  have hnext : u.tdiv length ≤ t.tdiv length + 1 :=
    (Int.tdiv_le_tdiv hlength hut.le).trans (tdiv_add_length_le hlength t)
  obtain h | h : u.tdiv length = t.tdiv length ∨ u.tdiv length = t.tdiv length + 1 := by omega
  · exact .inl (by rw [windowStart, windowStart, h])
  · exact .inr (by rw [windowStart, windowStart, h]; ring)

end Windows

/-! ## Logs -/

/-- An entry of the log: a counted request of someone, and the answer, if one arrived. -/
structure Verdict (ι κ : Type) where
  who : ι
  key : κ
  limit : ℤ
  answer : Option Bool
deriving DecidableEq

section Logs

variable {ι κ : Type} [DecidableEq κ]

/-- How many requests of the key were counted. -/
def tally (k : κ) (log : List (Verdict ι κ)) : ℕ := log.countP fun v => v.key = k

/-- How many requests of the keys were allowed. -/
def allowances (ks : List κ) (log : List (Verdict ι κ)) : ℕ :=
  log.countP fun v => v.key ∈ ks ∧ v.answer = some true

/-- Newest entry first: every answer says whether the request and the earlier ones of its key were
within its limit. -/
def Counted : List (Verdict ι κ) → Prop
  | [] => True
  | v :: log => (∀ b, v.answer = some b → (b = true ↔ (tally v.key log + 1 : ℤ) ≤ v.limit)) ∧
      Counted log

variable {log : List (Verdict ι κ)} {k : κ} {ks : List κ} {n : ℕ}

/-- A verdict counts for its own key. -/
theorem tally_cons (v : Verdict ι κ) :
    tally k (v :: log) = tally k log + if v.key = k then 1 else 0 := by
  rw [tally, tally, List.countP_cons]
  simp only [decide_eq_true_eq]

/-- What was allowed of a key was counted for it. -/
theorem allowances_le_tally : allowances [k] log ≤ tally k log := by
  refine List.countP_mono_left fun v _ h => ?_
  simp only [List.mem_singleton, decide_eq_true_eq] at h ⊢
  exact h.1

/-- The requests of several keys are those of the first one and those of the others. -/
theorem allowances_cons_le : allowances (k :: ks) log ≤ allowances [k] log + allowances ks log := by
  unfold allowances
  induction log with
  | nil => simp
  | cons v log ih =>
    simp only [List.countP_cons, List.mem_cons, List.not_mem_nil, or_false,
      decide_eq_true_eq] at ih ⊢
    split_ifs <;> first | omega | tauto

/-- No key is allowed more requests than its limit. -/
theorem Counted.allowances_singleton_le (h : Counted log)
    (hlimit : ∀ v ∈ log, v.key = k → v.limit ≤ n) : allowances [k] log ≤ n := by
  induction log with
  | nil => exact Nat.zero_le n
  | cons v log ih =>
    by_cases hv : v.key = k ∧ v.answer = some true
    · -- The last request that was allowed saw all the earlier ones counted.
      have hwithin := (h.1 true hv.2).mp rfl
      have hle := hlimit v (List.mem_cons_self ..) hv.1
      have htally := @allowances_le_tally _ _ _ log k
      rw [hv.1] at hwithin
      have hcons : allowances [k] (v :: log) = allowances [k] log + 1 := by
        rw [allowances, List.countP_cons_of_pos (by simpa using hv), allowances]
      omega
    · have hcons : allowances [k] (v :: log) = allowances [k] log := by
        rw [allowances, List.countP_cons_of_neg (by simpa using hv), allowances]
      rw [hcons]
      exact ih h.2 fun w hw => hlimit w (List.mem_cons_of_mem _ hw)

/-- Several keys are allowed no more requests than their limits together. -/
theorem Counted.allowances_le (h : Counted log) :
    ∀ ks : List κ, (∀ v ∈ log, v.key ∈ ks → v.limit ≤ n) → allowances ks log ≤ ks.length * n
  | [], _ => by simp [allowances]
  | k :: ks, hlimit => by
    have hfirst := h.allowances_singleton_le fun v hv hk =>
      hlimit v hv (hk ▸ List.mem_cons_self ..)
    have hrest := h.allowances_le ks fun v hv hk => hlimit v hv (List.mem_cons_of_mem _ hk)
    have hsplit := @allowances_cons_le _ _ _ log k ks
    rw [List.length_cons, Nat.add_mul, one_mul]
    omega

/-- If each of some different ones was allowed a request of the keys, there are no more of them than
the limits allow. -/
theorem Counted.length_le [DecidableEq ι] (h : Counted log) {who : List ι} (hwho : who.Nodup)
    (hallowed : ∀ i ∈ who, ∃ v ∈ log, v.who = i ∧ v.key ∈ ks ∧ v.answer = some true)
    (hlimit : ∀ v ∈ log, v.key ∈ ks → v.limit ≤ n) : who.length ≤ ks.length * n := by
  let allowed := log.filter fun v => v.key ∈ ks ∧ v.answer = some true
  have hsub : who ⊆ allowed.map Verdict.who := by
    intro i hi
    obtain ⟨v, hv, rfl, hkey, hanswer⟩ := hallowed i hi
    exact List.mem_map_of_mem (List.mem_filter.mpr ⟨hv, decide_eq_true ⟨hkey, hanswer⟩⟩)
  calc who.length ≤ (allowed.map Verdict.who).length :=
        (List.subperm_of_subset hwho hsub).length_le
    _ = allowances ks log := by rw [List.length_map, allowances, List.countP_eq_length_filter]
    _ ≤ ks.length * n := h.allowances_le ks hlimit

end Logs

end LedgerSync.Lib
