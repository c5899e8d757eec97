import Mathlib.Algebra.BigOperators.Group.List.Basic
import Mathlib.Algebra.Order.BigOperators.Group.List
import Mathlib.Data.List.AList
import LedgerSync.Money

/-!
# Journals that balance

`ValidateBalanced` adds up the debits and the credits of each currency in 64-bit money and compares
them. Amounts are positive, so that the sums of a list grow with it: when the whole fits, every sum
on the way does, and the order of the postings does not matter.
-/

namespace LedgerSync

open Lib

/-! ## Sums of money -/

/-- The errors of `Add`. -/
inductive MoneyError where
  | invalidAmount
  | currencyMismatch
deriving DecidableEq

namespace Money

/-- `Add`. -/
def add (m other : Money) : Except MoneyError Money :=
  if m.currency ≠ other.currency then .error .currencyMismatch
  else if h : 2 ^ 63 - 1 - (other.minor : ℤ) < m.minor then .error .invalidAmount
  else .ok
    { currency := m.currency
      minor := ⟨m.minor + other.minor, by have := m.nonneg; have := other.nonneg; omega⟩
      nonneg := Int.add_nonneg m.nonneg other.nonneg }

/-- The zero value of `Money`. -/
def zero : Money := ⟨⟨"", 0⟩, ⟨0, by decide⟩, le_rfl⟩

/-- Money that can be had outside the package: of a registered currency, or the zero value. -/
def Constructed (m : Money) : Prop := m.currency ∈ supportedCurrencies ∨ m = zero

end Money

/-! ## The validator -/

/-- `Debit`. -/
def debitDirection : String := "debit"

/-- `Credit`. -/
def creditDirection : String := "credit"

/-- A `Posting` of the services, as far as the validator reads it. -/
structure JournalPosting where
  direction : String
  amount : Money
  constructed : amount.Constructed

/-- The errors of the validator. -/
inductive JournalError where
  | unbalanced
  | sum (direction : String) (e : MoneyError)
deriving DecidableEq

/-- A map from currency codes to money. -/
abbrev MoneyTotals : Type := AList fun _ : String => Money

/-- The two maps of the validator. -/
structure JournalTotals where
  debits : MoneyTotals
  credits : MoneyTotals

/-- The total of a currency so far. -/
def MoneyTotals.current (totals : MoneyTotals) (key : String) : Money :=
  (totals.lookup key).getD ((Money.new key ⟨0, by decide⟩).getD Money.zero)

/-- The postings that are added up. -/
def JournalPosting.Valid (p : JournalPosting) : Prop :=
  0 < (p.amount.minor : ℤ) ∧ (p.direction = debitDirection ∨ p.direction = creditDirection)

/-- Whether a posting is valid can be decided. -/
instance JournalPosting.Valid.decidable (p : JournalPosting) : Decidable p.Valid :=
  inferInstanceAs (Decidable (_ ∧ _))

/-- One round of the loop of `ValidateBalanced`. -/
def JournalTotals.addPosting (t : JournalTotals) (p : JournalPosting) :
    Except JournalError JournalTotals :=
  if ¬p.Valid then .error .unbalanced
  else
    let key := p.amount.currency.code
    let totals := if p.direction = creditDirection then t.credits else t.debits
    match (totals.current key).add p.amount with
    | .error e => .error (.sum p.direction e)
    | .ok next =>
      if p.direction = creditDirection then .ok { t with credits := t.credits.insert key next }
      else .ok { t with debits := t.debits.insert key next }

/-- The comparison at the end of `ValidateBalanced`. -/
def JournalTotals.Agree (t : JournalTotals) : Prop :=
  (∀ currency ∈ t.debits.keys, (t.credits.lookup currency).map Money.minor =
    (t.debits.lookup currency).map Money.minor) ∧
  ∀ currency ∈ t.credits.keys, currency ∈ t.debits.keys

/-- Whether two totals agree can be decided. -/
instance JournalTotals.Agree.decidable (t : JournalTotals) : Decidable t.Agree :=
  inferInstanceAs (Decidable ((∀ c ∈ t.debits.keys, _) ∧ ∀ c ∈ t.credits.keys, _))

/-- `ValidateBalanced`. -/
def validateBalanced (postings : List JournalPosting) : Except JournalError Unit :=
  if postings.length < 2 then .error .unbalanced
  else do
    let totals ← postings.foldlM JournalTotals.addPosting ⟨∅, ∅⟩
    if totals.Agree then .ok () else .error .unbalanced

/-! ## The sums -/

/-- The sum of one direction and currency over all postings, without a bound. -/
def sideTotal (postings : List JournalPosting) (direction code : String) : ℤ :=
  (postings.map fun p => if p.direction = direction ∧ p.amount.currency.code = code then
    (p.amount.minor : ℤ) else 0).sum

/-- The total of two lists is the sum of their totals. -/
theorem sideTotal_append (ps qs : List JournalPosting) (direction code : String) :
    sideTotal (ps ++ qs) direction code =
      sideTotal ps direction code + sideTotal qs direction code := by
  unfold sideTotal
  rw [List.map_append, List.sum_append]

/-- The total of one posting is its amount, on its side and in its currency. -/
theorem sideTotal_singleton (p : JournalPosting) (direction code : String) :
    sideTotal [p] direction code =
      if p.direction = direction ∧ p.amount.currency.code = code then (p.amount.minor : ℤ) else 0 := by
  unfold sideTotal
  rw [List.map_singleton, List.sum_singleton]

/-- A total is not negative. -/
theorem sideTotal_nonneg (ps : List JournalPosting) (direction code : String) :
    0 ≤ sideTotal ps direction code := by
  refine List.sum_nonneg fun x hx => ?_
  obtain ⟨p, -, rfl⟩ := List.mem_map.mp hx
  split_ifs
  · exact p.amount.nonneg
  · exact le_rfl

/-- A total does not depend on the order. -/
theorem sideTotal_perm {ps qs : List JournalPosting} (h : ps.Perm qs) (direction code : String) :
    sideTotal ps direction code = sideTotal qs direction code :=
  (h.map _).sum_eq

/-- The sums grow with the list. -/
theorem sideTotal_mono {pre ps : List JournalPosting} (h : pre <+: ps)
    (direction code : String) : sideTotal pre direction code ≤ sideTotal ps direction code := by
  obtain ⟨post, rfl⟩ := h
  have hpost := sideTotal_nonneg post direction code
  rw [sideTotal_append]
  omega

/-- A map that holds the sums of one direction: the positive ones, as money of their currency. -/
def MoneyTotals.Holds (totals : MoneyTotals) (total : String → ℤ) : Prop :=
  ∀ code, (totals.lookup code = none ∧ total code = 0) ∨
    ∃ m, totals.lookup code = some m ∧ (m.minor : ℤ) = total code ∧ 0 < total code ∧
      m.currency ∈ supportedCurrencies ∧ m.currency.code = code

/-- The maps after some postings. -/
structure JournalTotals.Sums (t : JournalTotals) (ps : List JournalPosting) : Prop where
  debits : t.debits.Holds (sideTotal ps debitDirection)
  credits : t.credits.Holds (sideTotal ps creditDirection)

/-- The currencies are known by their codes. -/
theorem supportedCurrencies_code_inj : ∀ c ∈ supportedCurrencies, ∀ c' ∈ supportedCurrencies,
    c.code = c'.code → c = c' := by
  decide

/-- What a map that holds the sums has for a currency. -/
theorem MoneyTotals.Holds.current {totals : MoneyTotals} {total : String → ℤ}
    (h : totals.Holds total) {currency : Currency} (hcurrency : currency ∈ supportedCurrencies) :
    (totals.current currency.code).currency = currency ∧
      ((totals.current currency.code).minor : ℤ) = total currency.code := by
  unfold MoneyTotals.current
  rcases h currency.code with ⟨hnone, hzero⟩ | ⟨m, hm, hminor, -, hmem, hcode⟩
  · have hnew : Money.new currency.code ⟨0, by decide⟩ =
        some ⟨currency, ⟨0, by decide⟩, le_rfl⟩ := by
      unfold Money.new
      rw [dif_pos le_rfl, lookupCurrency_supported currency hcurrency]
      rfl
    rw [hnone, hzero, Option.getD_none, hnew]
    exact ⟨rfl, rfl⟩
  · rw [hm]
    exact ⟨supportedCurrencies_code_inj _ hmem _ hcurrency hcode, hminor⟩

/-- A sum within the range is the sum of the amounts. -/
theorem Money.add_of_fits {m other : Money} (hcurrency : m.currency = other.currency)
    (hfits : (m.minor : ℤ) + other.minor < 2 ^ 63) :
    ∃ next, m.add other = .ok next ∧ next.currency = m.currency ∧
      (next.minor : ℤ) = m.minor + other.minor := by
  unfold Money.add
  rw [if_neg (not_not.mpr hcurrency), dif_neg (by omega)]
  exact ⟨_, rfl, rfl, rfl⟩

/-- A sum beyond the range is refused. -/
theorem Money.add_of_overflow {m other : Money} (hcurrency : m.currency = other.currency)
    (hover : 2 ^ 63 ≤ (m.minor : ℤ) + other.minor) : m.add other = .error .invalidAmount := by
  unfold Money.add
  rw [if_neg (not_not.mpr hcurrency), dif_pos (by omega)]

/-- The map with one more amount holds the sums with that amount. -/
theorem MoneyTotals.Holds.insert {totals : MoneyTotals} {total total' : String → ℤ}
    (h : totals.Holds total) {next : Money} (hcurrency : next.currency ∈ supportedCurrencies)
    (hnext : (next.minor : ℤ) = total' next.currency.code)
    (hpos : 0 < (next.minor : ℤ)) (hother : ∀ code, code ≠ next.currency.code →
      total' code = total code) :
    MoneyTotals.Holds (totals.insert next.currency.code next) total' := by
  intro code
  by_cases hcode : code = next.currency.code
  · subst hcode
    exact .inr ⟨next, AList.lookup_insert totals, hnext, hnext ▸ hpos, hcurrency, rfl⟩
  · rw [AList.lookup_insert_ne hcode, hother code hcode]
    exact h code

/-- Totals of the same values hold the same. -/
theorem MoneyTotals.Holds.congr {totals : MoneyTotals} {total total' : String → ℤ}
    (h : totals.Holds total) (heq : ∀ code, total' code = total code) : totals.Holds total' := by
  rw [funext heq]
  exact h

section Rounds

variable {t t' : JournalTotals} {ps : List JournalPosting} {p : JournalPosting}

/-- Adding a posting to the side of its direction does not touch the other one. -/
theorem sideTotal_append_ne {direction : String} (hne : p.direction ≠ direction) (code : String) :
    sideTotal (ps ++ [p]) direction code = sideTotal ps direction code := by
  rw [sideTotal_append, sideTotal_singleton, if_neg fun h => hne h.1, Int.add_zero]

/-- A further posting adds its amount to its side and its currency. -/
theorem sideTotal_append_self :
    sideTotal (ps ++ [p]) p.direction p.amount.currency.code =
      sideTotal ps p.direction p.amount.currency.code + p.amount.minor := by
  rw [sideTotal_append, sideTotal_singleton, if_pos ⟨rfl, rfl⟩]

/-- It adds nothing to the other currencies. -/
theorem sideTotal_append_code {direction code : String} (hne : code ≠ p.amount.currency.code) :
    sideTotal (ps ++ [p]) direction code = sideTotal ps direction code := by
  rw [sideTotal_append, sideTotal_singleton, if_neg fun h => hne h.2.symm, Int.add_zero]

/-- A posting with a positive amount has a registered currency. -/
theorem JournalPosting.Valid.registered (h : p.Valid) :
    p.amount.currency ∈ supportedCurrencies := by
  rcases p.constructed with hmem | hzero
  · exact hmem
  · have hpos := h.1
    rw [hzero] at hpos
    exact absurd hpos (by decide)

/-- A debit is not a credit. -/
theorem debitDirection_ne : debitDirection ≠ creditDirection := by decide

/-- A round with a valid posting: it adds the amount, or reports that the sum does not fit. -/
theorem JournalTotals.Sums.addPosting (h : t.Sums ps) (hp : p.Valid) :
    if sideTotal (ps ++ [p]) p.direction p.amount.currency.code < 2 ^ 63 then
      ∃ t', t.addPosting p = .ok t' ∧ t'.Sums (ps ++ [p])
    else t.addPosting p = .error (.sum p.direction .invalidAmount) := by
  have hregistered := hp.registered
  -- Only the side of the posting is touched.
  have hside : (if p.direction = creditDirection then t.credits else t.debits).Holds
      (sideTotal ps p.direction) := by
    split_ifs with hcredit
    · rw [hcredit]
      exact h.credits
    · rw [hp.2.resolve_right hcredit]
      exact h.debits
  obtain ⟨hcurrency, hminor⟩ := hside.current hregistered
  have hstep : t.addPosting p = (match ((if p.direction = creditDirection then t.credits
      else t.debits).current p.amount.currency.code).add p.amount with
      | .error e => .error (.sum p.direction e)
      | .ok next =>
        if p.direction = creditDirection then
          .ok { t with credits := t.credits.insert p.amount.currency.code next }
        else .ok { t with debits := t.debits.insert p.amount.currency.code next }) := by
    unfold JournalTotals.addPosting
    rw [if_neg (not_not.mpr hp)]
  rw [sideTotal_append_self]
  -- The sum fits and the totals hold one posting more, or it does not and the call fails.
  split_ifs with hfits
  · obtain ⟨next, hadd, hnext, hvalue⟩ := Money.add_of_fits hcurrency (by rw [hminor]; exact hfits)
    rw [hcurrency] at hnext
    have hsum : (next.minor : ℤ) = sideTotal (ps ++ [p]) p.direction next.currency.code := by
      rw [hvalue, hminor, hnext, sideTotal_append_self]
    have hpos : 0 < (next.minor : ℤ) := by
      have hold := sideTotal_nonneg ps p.direction p.amount.currency.code
      have hamount := hp.1
      omega
    have hgrown := hside.insert (hnext ▸ hregistered) hsum hpos fun code hcode =>
      sideTotal_append_code (by rw [← hnext]; exact hcode)
    rw [hnext] at hgrown
    rw [hstep, hadd]
    -- The other side keeps its sums.
    by_cases hcredit : p.direction = creditDirection
    · rw [if_pos hcredit] at hgrown
      refine ⟨_, if_pos hcredit, ?_, ?_⟩
      · refine h.debits.congr fun code => sideTotal_append_ne ?_ code
        rw [hcredit]
        exact debitDirection_ne.symm
      · rw [hcredit] at hgrown
        exact hgrown
    · have hdebit := hp.2.resolve_right hcredit
      rw [if_neg hcredit, hdebit] at hgrown
      refine ⟨_, if_neg hcredit, hgrown, ?_⟩
      exact h.credits.congr fun code => sideTotal_append_ne hcredit code
  · rw [hstep, Money.add_of_overflow hcurrency (by rw [hminor]; exact not_lt.mp hfits)]

/-- The sums of both directions are within 64 bits. -/
def SumsFit (ps : List JournalPosting) : Prop :=
  ∀ direction ∈ [debitDirection, creditDirection], ∀ code, sideTotal ps direction code < 2 ^ 63

/-- The sums of the beginning of a list fit when those of the list do. -/
theorem SumsFit.mono {pre : List JournalPosting} (h : SumsFit ps) (hpre : pre <+: ps) :
    SumsFit pre := fun direction hdirection code =>
  (sideTotal_mono hpre direction code).trans_lt (h direction hdirection code)

/-- The sums fit with a further posting when its own does. -/
theorem SumsFit.append (h : SumsFit ps)
    (hp : sideTotal (ps ++ [p]) p.direction p.amount.currency.code < 2 ^ 63) :
    SumsFit (ps ++ [p]) := by
  intro direction hdirection code
  by_cases hside : p.direction = direction
  · by_cases hcode : code = p.amount.currency.code
    · rw [← hside, hcode]
      exact hp
    · rw [sideTotal_append_code hcode]
      exact h direction hdirection code
  · rw [sideTotal_append_ne hside]
    exact h direction hdirection code

/-- The loop adds up all postings, or stops at the first that is not valid or does not fit. -/
theorem JournalTotals.Sums.foldlM {post : List JournalPosting} (h : t.Sums ps) (hfits : SumsFit ps) :
    (∃ t', post.foldlM JournalTotals.addPosting t = .ok t' ∧ t'.Sums (ps ++ post) ∧
      (∀ p ∈ post, p.Valid) ∧ SumsFit (ps ++ post)) ∨
    ∃ mid p rest, post = mid ++ p :: rest ∧ (∀ q ∈ mid, q.Valid) ∧ SumsFit (ps ++ mid) ∧
      ((¬p.Valid ∧ post.foldlM JournalTotals.addPosting t = .error .unbalanced) ∨
        (p.Valid ∧ 2 ^ 63 ≤ sideTotal (ps ++ mid ++ [p]) p.direction p.amount.currency.code ∧
          post.foldlM JournalTotals.addPosting t = .error (.sum p.direction .invalidAmount))) := by
  -- The induction is on the postings still to come; the first one that fails stops the loop.
  induction post generalizing t ps with
  | nil => exact .inl ⟨t, rfl, by rwa [List.append_nil], by simp, by rwa [List.append_nil]⟩
  | cons p post ih =>
    have hrun : (p :: post).foldlM JournalTotals.addPosting t =
        t.addPosting p >>= fun t => post.foldlM JournalTotals.addPosting t := List.foldlM_cons
    by_cases hp : p.Valid
    · have hround := h.addPosting hp
      split_ifs at hround with hfit
      · obtain ⟨t₁, ht₁, hsums⟩ := hround
        rw [ht₁] at hrun
        have happend : ps ++ p :: post = ps ++ [p] ++ post := by simp
        rcases ih hsums (hfits.append hfit) with ⟨t', ht', hs', hvalid, hall⟩ |
          ⟨mid, q, rest, rfl, hvalid, hmid, hstop⟩
        · refine .inl ⟨t', hrun.trans ht', by rwa [happend], ?_, by rwa [happend]⟩
          exact List.forall_mem_cons.mpr ⟨hp, hvalid⟩
        · have hmore : ps ++ p :: mid = ps ++ [p] ++ mid := by simp
          refine .inr ⟨p :: mid, q, rest, rfl, List.forall_mem_cons.mpr ⟨hp, hvalid⟩, ?_, ?_⟩
          · rwa [hmore]
          · rw [hmore, hrun]
            exact hstop
      · refine .inr ⟨[], p, post, rfl, by simp, by rwa [List.append_nil], .inr ⟨hp, ?_, ?_⟩⟩
        · rw [List.append_nil]
          exact not_lt.mp hfit
        · rw [hrun, hround]
          rfl
    -- A posting that is not valid is refused before it is added.
    · refine .inr ⟨[], p, post, rfl, by simp, by rwa [List.append_nil], .inl ⟨hp, ?_⟩⟩
      have hstop : t.addPosting p = .error .unbalanced := if_pos hp
      rw [hrun, hstop]
      rfl

/-- The maps agree when the sums do. -/
theorem JournalTotals.Sums.agree (h : t.Sums ps) : t.Agree ↔
    ∀ code, sideTotal ps debitDirection code = sideTotal ps creditDirection code := by
  -- A code is a key of the totals just when a total is stored for it.
  have hlookup : ∀ {totals : MoneyTotals} {code : String}, code ∈ totals.keys ↔
      ∃ m, totals.lookup code = some m := fun {totals code} => by
    rw [← Option.isSome_iff_exists, AList.lookup_isSome]
    rfl
  constructor
  -- A code that neither side holds has the sum zero on both.
  · rintro ⟨hdebits, hcredits⟩ code
    rcases h.debits code with ⟨hnone, hzero⟩ | ⟨m, hm, hminor, -⟩
    · rcases h.credits code with ⟨-, hzero'⟩ | ⟨m', hm', -⟩
      · rw [hzero, hzero']
      · obtain ⟨m, hm⟩ := hlookup.mp (hcredits code (hlookup.mpr ⟨m', hm'⟩))
        rw [hnone] at hm
        cases hm
    · have heq := hdebits code (hlookup.mpr ⟨m, hm⟩)
      rw [hm] at heq
      rcases h.credits code with ⟨hnone', -⟩ | ⟨m', hm', hminor', -⟩
      · rw [hnone'] at heq
        cases heq
      · rw [hm'] at heq
        rw [← hminor, ← hminor', Option.some.inj heq]
  · intro heq
    -- The sums of the held codes are positive, so that they cannot be missing on the other side.
    constructor
    · intro code hcode
      obtain ⟨m, hm⟩ := hlookup.mp hcode
      rcases h.debits code with ⟨hnone, -⟩ | ⟨m₁, hm₁, hminor, hpos, -⟩
      · rw [hnone] at hm
        cases hm
      · rcases h.credits code with ⟨-, hzero⟩ | ⟨m', hm', hminor', -⟩
        · have hcode := heq code
          omega
        · rw [hm', hm₁]
          refine congrArg some (Bigint.ext ?_)
          rw [hminor, hminor', heq code]
    · intro code hcode
      obtain ⟨m, hm⟩ := hlookup.mp hcode
      rcases h.credits code with ⟨hnone, -⟩ | ⟨m₁, hm₁, hminor, hpos, -⟩
      · rw [hnone] at hm
        cases hm
      · rcases h.debits code with ⟨-, hzero⟩ | ⟨m', hm', -⟩
        · have hcode := heq code
          omega
        · exact hlookup.mpr ⟨m', hm'⟩

/-- At first both totals are empty. -/
theorem sums_empty : JournalTotals.Sums ⟨∅, ∅⟩ [] :=
  ⟨fun _ => .inl ⟨rfl, rfl⟩, fun _ => .inl ⟨rfl, rfl⟩⟩

/-- The sums of no postings fit. -/
theorem sumsFit_nil : SumsFit [] := fun _ _ _ => by
  unfold sideTotal
  norm_num

end Rounds

/-! ## The verdict -/

/-- What a balanced journal is. -/
structure JournalBalanced (ps : List JournalPosting) : Prop where
  length : 2 ≤ ps.length
  valid : ∀ p ∈ ps, p.Valid
  balanced : ∀ code, sideTotal ps debitDirection code = sideTotal ps creditDirection code
  running : ∀ pre, pre <+: ps → SumsFit pre

/-- Whether a journal is balanced does not depend on the order of its postings. -/
theorem JournalBalanced.perm {ps qs : List JournalPosting} (h : JournalBalanced ps)
    (hperm : ps.Perm qs) : JournalBalanced qs where
  length := hperm.length_eq ▸ h.length
  valid p hp := h.valid p (hperm.mem_iff.mpr hp)
  balanced code := by
    rw [← sideTotal_perm hperm, ← sideTotal_perm hperm]
    exact h.balanced code
  running pre hpre := by
    refine SumsFit.mono (show SumsFit qs from fun direction hdirection code => ?_) hpre
    rw [← sideTotal_perm hperm]
    exact h.running ps (List.prefix_refl ps) direction hdirection code

/-- What the validator returns. -/
theorem validateBalanced_cases (ps : List JournalPosting) :
    (validateBalanced ps = .ok () ∧ JournalBalanced ps) ∨
      (validateBalanced ps = .error .unbalanced ∧ (ps.length < 2 ∨ (∃ p ∈ ps, ¬p.Valid) ∨
        (SumsFit ps ∧
          ¬∀ code, sideTotal ps debitDirection code = sideTotal ps creditDirection code))) ∨
      ∃ pre p post, ps = pre ++ p :: post ∧ p.Valid ∧
        2 ^ 63 ≤ sideTotal (pre ++ [p]) p.direction p.amount.currency.code ∧
        validateBalanced ps = .error (.sum p.direction .invalidAmount) := by
  by_cases hlength : ps.length < 2
  · exact .inr (.inl ⟨if_pos hlength, .inl hlength⟩)
  · have hrun : validateBalanced ps = (ps.foldlM JournalTotals.addPosting ⟨∅, ∅⟩ >>= fun totals =>
        if totals.Agree then .ok () else .error .unbalanced) := if_neg hlength
    -- The loop runs through, meets a posting that is not valid, or one that overflows.
    rcases @JournalTotals.Sums.foldlM _ _ ps sums_empty sumsFit_nil with
      ⟨t, ht, hsums, hvalid, hfits⟩ |
      ⟨mid, p, rest, rfl, -, -, ⟨hp, hstop⟩ | ⟨hp, hover, hstop⟩⟩
    · rw [List.nil_append] at hsums hfits
      rw [ht] at hrun
      by_cases hagree : t.Agree
      · refine .inl ⟨hrun.trans (if_pos hagree), by omega, hvalid, hsums.agree.mp hagree, ?_⟩
        exact fun pre hpre => hfits.mono hpre
      · rw [hsums.agree] at hagree
        exact .inr (.inl ⟨by rw [hrun]; exact if_neg (hsums.agree.not.mpr hagree),
          .inr (.inr ⟨hfits, hagree⟩)⟩)
    · exact .inr (.inl ⟨by rw [hrun, hstop]; rfl,
        .inr (.inl ⟨p, List.mem_append_right _ List.mem_cons_self, hp⟩)⟩)
    · rw [List.nil_append] at hover
      exact .inr (.inr ⟨mid, p, rest, rfl, hp, hover, by rw [hrun, hstop]; rfl⟩)

/-- **`ValidateBalanced` is exact.** It accepts the lists of at least two valid postings whose
debits and credits are the same in every currency and whose running sums fit; a sum that does not
fit is reported; and for lists whose sums fit the verdict does not depend on the order. -/
theorem validate_balanced_exact (ps : List JournalPosting) :
    (validateBalanced ps = .ok () ↔ JournalBalanced ps) ∧
    ((∃ pre, pre <+: ps ∧ ¬SumsFit pre) → ∃ e, validateBalanced ps = .error e) ∧
    (2 ≤ ps.length → (∀ p ∈ ps, p.Valid) → ¬SumsFit ps →
      ∃ direction, validateBalanced ps = .error (.sum direction .invalidAmount)) ∧
    (SumsFit ps → ∀ qs, ps.Perm qs → validateBalanced qs = validateBalanced ps) := by
  have hover : ∀ {pre : List JournalPosting} {p : JournalPosting}, p.Valid →
      2 ^ 63 ≤ sideTotal (pre ++ [p]) p.direction p.amount.currency.code →
      ¬SumsFit (pre ++ [p]) := by
    intro pre p hp hover hfits
    have hdirection : p.direction ∈ [debitDirection, creditDirection] := by
      rcases hp.2 with h | h <;> simp [h]
    exact absurd (hfits p.direction hdirection p.amount.currency.code) (not_lt.mpr hover)
  have hiff : ∀ qs, validateBalanced qs = .ok () ↔ JournalBalanced qs := by
    intro qs
    rcases validateBalanced_cases qs with ⟨hok, h⟩ | ⟨herror, hbad⟩ |
      ⟨pre, p, post, hqs, hp, hsum, herror⟩
    · exact ⟨fun _ => h, fun _ => hok⟩
    · rw [herror]
      refine ⟨fun h => (nomatch h), fun h => ?_⟩
      rcases hbad with hshort | ⟨p, hmem, hp⟩ | ⟨-, hdiffer⟩
      · exact absurd h.length (by omega)
      · exact absurd (h.valid p hmem) hp
      · exact absurd h.balanced hdiffer
    · rw [herror]
      refine ⟨fun h => (nomatch h), fun h => ?_⟩
      exact absurd (h.running _ ⟨post, by rw [hqs]; simp⟩) (hover hp hsum)
  -- When the sums fit, the only error is that the journal is not balanced.
  have hverdict : ∀ qs, SumsFit qs → validateBalanced qs = .ok () ∨
      validateBalanced qs = .error .unbalanced := by
    intro qs hfits
    rcases validateBalanced_cases qs with ⟨hok, -⟩ | ⟨herror, -⟩ |
      ⟨pre, p, post, hqs, hp, hsum, -⟩
    · exact .inl hok
    · exact .inr herror
    · exact absurd (hfits.mono ⟨post, by rw [hqs]; simp⟩) (hover hp hsum)
  refine ⟨hiff ps, ?_, ?_, ?_⟩
  · rintro ⟨pre, hpre, hbad⟩
    rcases hverdict' : validateBalanced ps with e | u
    · exact ⟨e, rfl⟩
    · exact absurd ((hiff ps).mp hverdict' |>.running pre hpre) hbad
  · intro hlength hvalid hbad
    rcases validateBalanced_cases ps with ⟨-, h⟩ | ⟨-, hshort | ⟨p, hmem, hp⟩ | ⟨hfits, -⟩⟩ |
      ⟨pre, p, post, -, -, -, herror⟩
    · exact absurd (h.running ps (List.prefix_refl ps)) hbad
    · omega
    · exact absurd (hvalid p hmem) hp
    · exact absurd hfits hbad
    · exact ⟨p.direction, herror⟩
  · intro hfits qs hperm
    have hfits' : SumsFit qs := fun direction hdirection code => by
      rw [← sideTotal_perm hperm]
      exact hfits direction hdirection code
    rcases hverdict ps hfits with hok | herror
    · rw [hok]
      exact (hiff qs).mpr (((hiff ps).mp hok).perm hperm)
    · rcases hverdict qs hfits' with hok' | herror'
      · rw [(hiff ps).mpr (((hiff qs).mp hok').perm hperm.symm)] at herror
        cases herror
      · rw [herror, herror']

end LedgerSync
