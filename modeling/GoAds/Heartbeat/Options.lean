import GoAds.Lib.Wrap
import GoAds.Heartbeat.Backoff

/-!
# `Heartbeat.Options` — the window that the options ask for

`WithNotificationHeartbeat` and `WithNotificationSilenceTimeout`, any number of them in any order, and
`normalizeHeartbeatOptions` after them, in the 64-bit arithmetic of the code.  The detector's window is
in natural numbers, and it is the code's where nothing wraps.
-/

namespace GoAds.Heartbeat

def defaultHeartbeatInterval : Int := 2 * 10 ^ 9

def maxADSCycleTime : Int := 400 * 10 ^ 9

/-- The fields of the session that the two options write; a fresh session has zeros. -/
structure Options where
  heartbeatInterval : Int := 0
  heartbeatMissed : Int := 0
  heartbeatSilence : Int := 0
  heartbeatDisabled : Bool := false

inductive SessionOption
  | withNotificationHeartbeat (interval missed : Int64)
  | withNotificationSilenceTimeout (d : Int64)

def SessionOption.apply (s : Options) : SessionOption → Options
  | .withNotificationHeartbeat interval missed =>
    { heartbeatInterval :=
        if 0 < interval.toInt then min interval.toInt maxADSCycleTime else s.heartbeatInterval
      heartbeatMissed := max missed.toInt 2
      -- the last of the two options decides
      heartbeatSilence := 0
      heartbeatDisabled := false }
  | .withNotificationSilenceTimeout d =>
    if d.toInt ≤ 0 then s else { s with heartbeatSilence := d.toInt, heartbeatDisabled := false }

/-- The option loop of a new session. -/
def applyAll (opts : List SessionOption) : Options := opts.foldl SessionOption.apply {}

def Options.heartbeatCycle (s : Options) : Int :=
  if 0 < s.heartbeatInterval then s.heartbeatInterval else defaultHeartbeatInterval

def Options.heartbeatAllowedMisses (s : Options) : Int :=
  if 2 ≤ s.heartbeatMissed then s.heartbeatMissed else defaultHeartbeatMissed

def Options.normalizeHeartbeatOptions (s : Options) : Options :=
  if s.heartbeatSilence ≤ 0 then s
  else
    let total := wrap (wrap (s.heartbeatSilence + s.heartbeatCycle) - 1)
    { s with heartbeatMissed := max (total.tdiv s.heartbeatCycle) 2 }

/-- `heartbeatAllowedTicks`, as the code computes it. -/
def heartbeatAllowedTicks64 (base : Int) (consecutiveFailures : Nat) (cycle : Int) : Int :=
  if consecutiveFailures = 0 ∨ base ≤ 0 ∨ cycle ≤ 0 then base
  else
    let shift := min consecutiveFailures maxFailureBackoffShift
    let capTicks := max ((maxHeartbeatRecoveryBackoff : Int).tdiv cycle) base
    min (wrap (base * 2 ^ shift)) capTicks

variable {base cycle : Int}

/-- Where no shift wraps, it is the window of the detector. -/
theorem heartbeatAllowedTicks64_eq (hbase : 0 ≤ base) (hfits : base < 2 ^ 57) (hcycle : 0 ≤ cycle) (f : Nat) :
    heartbeatAllowedTicks64 base f cycle = heartbeatAllowedTicks base.toNat f cycle.toNat := by
  obtain ⟨b, rfl⟩ := Int.eq_ofNat_of_zero_le hbase
  obtain ⟨c, rfl⟩ := Int.eq_ofNat_of_zero_le hcycle
  unfold heartbeatAllowedTicks64 heartbeatAllowedTicks
  have hcond : f = 0 ∨ (b : Int) ≤ 0 ∨ (c : Int) ≤ 0 ↔ f = 0 ∨ b = 0 ∨ c = 0 := by omega
  simp only [hcond, Int.toNat_natCast]
  split
  · rfl
  have hwrap : wrap (b * 2 ^ min f maxFailureBackoffShift) = (b * 2 ^ min f maxFailureBackoffShift : Nat) := by
    have hle : b * 2 ^ min f maxFailureBackoffShift ≤ b * 2 ^ 6 :=
      Nat.mul_le_mul_left b (Nat.pow_le_pow_right Nat.two_pos (Nat.min_le_right ..))
    rw [← wrap_of_fits (x := (b * 2 ^ min f maxFailureBackoffShift : Nat)) (by omega) (by omega)]
    push_cast
    rfl
  rw [hwrap, Nat.shiftLeft_eq, ← Int.ofNat_tdiv]
  omega

/-- The bounds that the window is to keep to. -/
structure Bounded (base cycle : Int) : Prop where
  ge : ∀ f, base ≤ heartbeatAllowedTicks64 base f cycle
  le : ∀ f, heartbeatAllowedTicks64 base f cycle ≤ max base ((maxHeartbeatRecoveryBackoff : Int).tdiv cycle)
  mono : ∀ f f', f ≤ f' → heartbeatAllowedTicks64 base f cycle ≤ heartbeatAllowedTicks64 base f' cycle

theorem heartbeatAllowedTicks64_le (base : Int) (f : Nat) (cycle : Int) : heartbeatAllowedTicks64 base f cycle ≤
    max base ((maxHeartbeatRecoveryBackoff : Int).tdiv cycle) := by
  unfold heartbeatAllowedTicks64
  split
  · exact le_max_left ..
  · rw [max_comm base]
    exact min_le_right ..

/-- A base that the largest shift overflows is overflowed to a negative window by some shift. -/
theorem exists_negative_window (hover : 2 ^ 57 ≤ base) (hlt : base < 2 ^ 63) (hcycle : 0 < cycle) :
    ∃ f, heartbeatAllowedTicks64 base f cycle < 0 := by
  obtain ⟨k, hk, hk', hge, hle⟩ : ∃ k : Nat, k ≠ 0 ∧ k ≤ 6 ∧ 2 ^ 63 ≤ base * 2 ^ k ∧ base * 2 ^ k < 2 ^ 64 := by
    by_contra hno
    have hall : ∀ k : Nat, k ≠ 0 → k ≤ 6 → 2 ^ 63 ≤ base * 2 ^ k → 2 ^ 64 ≤ base * 2 ^ k :=
      fun k h0 h6 hge => Int.not_lt.1 fun hlt => hno ⟨k, h0, h6, hge, hlt⟩
    have h1 := hall 1
    have h2 := hall 2
    have h3 := hall 3
    have h4 := hall 4
    have h5 := hall 5
    have h6 := hall 6
    omega
  refine ⟨k, ?_⟩
  unfold heartbeatAllowedTicks64
  rw [if_neg (by omega)]
  refine (min_le_left _ _).trans_lt ?_
  rw [show min k maxFailureBackoffShift = k from Nat.min_eq_left hk', wrap_of_over hge hle]
  omega

/-- The window is sound for exactly the bases below `2 ^ 57`. -/
theorem bounded_iff (hbase : 2 ≤ base) (hlt : base < 2 ^ 63) (hcycle : 0 < cycle) :
    Bounded base cycle ↔ base < 2 ^ 57 := by
  constructor
  · intro h
    by_contra hover
    obtain ⟨f, hf⟩ := exists_negative_window (Int.not_lt.1 hover) hlt hcycle
    have := h.ge f
    omega
  intro hfits
  have heq f := heartbeatAllowedTicks64_eq (by omega) hfits hcycle.le f
  refine ⟨fun f => ?_, fun f => heartbeatAllowedTicks64_le base f cycle, fun f f' hle => ?_⟩
  · rw [heq]
    have := le_heartbeatAllowedTicks base.toNat f cycle.toNat
    omega
  · rw [heq, heq]
    exact_mod_cast heartbeatAllowedTicks_mono _ _ hle

/-! ## The options -/

/-- What the option loop leaves. -/
structure Loaded (s : Options) : Prop where
  cycle : 0 < s.heartbeatCycle
  short : s.heartbeatCycle ≤ maxADSCycleTime
  missed : s.heartbeatMissed < 2 ^ 63
  silence : s.heartbeatSilence < 2 ^ 63

theorem Loaded.apply {s} (h : Loaded s) (o : SessionOption) : Loaded (o.apply s) := by
  cases o with
  | withNotificationHeartbeat interval missed =>
    have hc := h.cycle
    have hs := h.short
    have hm := missed.toInt_lt
    unfold Options.heartbeatCycle at hc hs
    refine ⟨?_, ?_, by simp only [SessionOption.apply]; omega, by simp [SessionOption.apply]⟩
    all_goals
      simp only [SessionOption.apply, Options.heartbeatCycle, maxADSCycleTime, defaultHeartbeatInterval] at *
      split <;> omega
  | withNotificationSilenceTimeout d =>
    simp only [SessionOption.apply]
    split
    · exact h
    · exact ⟨h.cycle, h.short, h.missed, d.toInt_lt⟩

theorem loaded_applyAll (opts : List SessionOption) : Loaded (applyAll opts) := by
  have hall : ∀ (opts : List SessionOption) (s : Options), 
      Loaded s → Loaded (opts.foldl SessionOption.apply s) := by
    intro opts
    induction opts with
    | nil => exact fun _ h => h
    | cons o opts ih => exact fun s h => ih _ (h.apply o)
  exact hall opts _ ⟨by decide, by decide, by decide, by decide⟩

/-- The timeouts and the counts that the arithmetic can hold: the silence timeout that was set last leaves
    room for a cycle, and the window is below `2 ^ 57` ticks. -/
structure Fits (opts : List SessionOption) : Prop where
  silence : ∀ pre d, opts = pre ++ [.withNotificationSilenceTimeout d] →
    d.toInt + (applyAll opts).heartbeatCycle ≤ 2 ^ 63
  window : if 0 < (applyAll opts).heartbeatSilence then
      (applyAll opts).heartbeatSilence ≤ (2 ^ 57 - 1) * (applyAll opts).heartbeatCycle ∨
        2 ^ 63 < (applyAll opts).heartbeatSilence + (applyAll opts).heartbeatCycle
    else (applyAll opts).heartbeatMissed < 2 ^ 57

section Window

variable {s : Options} (h : Loaded s)

include h

/-- The window of a silence timeout: rounded up, unless the sum wraps. -/
theorem Loaded.allowedMisses (hs : 0 < s.heartbeatSilence) :
    s.normalizeHeartbeatOptions.heartbeatAllowedMisses =
      if s.heartbeatSilence + s.heartbeatCycle ≤ 2 ^ 63 then
        max ((s.heartbeatSilence + s.heartbeatCycle - 1) / s.heartbeatCycle) 2
      else 2 := by
  have hc := h.cycle
  have hshort := h.short
  have hsilent := h.silence
  simp only [Options.normalizeHeartbeatOptions, if_neg (Int.not_le.2 hs), wrap_sub,
    Options.heartbeatAllowedMisses, le_max_right, if_true]
  unfold maxADSCycleTime at hshort
  split
  · next hfits =>
    rw [wrap_of_fits (by omega) (by omega), Int.tdiv_eq_ediv_of_nonneg (by omega)]
  · rw [wrap_of_over (by omega) (by omega)]
    have hpos : 0 ≤ (-(s.heartbeatSilence + s.heartbeatCycle - 1 - 2 ^ 64)).tdiv s.heartbeatCycle :=
      Int.tdiv_nonneg (by omega) hc.le
    rw [Int.neg_tdiv] at hpos
    exact max_eq_right (by omega)

/-- The window is as long as the timeout if and only if the sum does not wrap. -/
theorem Loaded.silence_le_iff (hs : 0 < s.heartbeatSilence) :
    s.heartbeatSilence ≤ s.normalizeHeartbeatOptions.heartbeatAllowedMisses * s.heartbeatCycle ↔
      s.heartbeatSilence + s.heartbeatCycle ≤ 2 ^ 63 := by
  have hc := h.cycle
  have hshort := h.short
  unfold maxADSCycleTime at hshort
  rw [h.allowedMisses hs]
  split
  · next hfits =>
    refine iff_of_true ?_ hfits
    have hquot := Int.lt_ediv_add_one_mul_self (s.heartbeatSilence + s.heartbeatCycle - 1) hc
    have hmax := Int.mul_le_mul_of_nonneg_right
      (le_max_left ((s.heartbeatSilence + s.heartbeatCycle - 1) / s.heartbeatCycle) 2) hc.le
    rw [Int.add_mul] at hquot
    omega
  · next hover => exact iff_of_false (by omega) hover

theorem Loaded.allowedMisses_lt : s.normalizeHeartbeatOptions.heartbeatAllowedMisses < 2 ^ 63 := by
  by_cases hs : 0 < s.heartbeatSilence
  · rw [h.allowedMisses hs]
    split
    · next hfits =>
      rw [max_lt_iff, Int.ediv_lt_iff_lt_mul h.cycle]
      have hc := h.cycle
      omega
    · decide
  · simp only [Options.normalizeHeartbeatOptions, if_pos (Int.not_lt.1 hs), Options.heartbeatAllowedMisses]
    split
    · exact h.missed
    · decide

theorem Loaded.allowed_lt_iff : s.normalizeHeartbeatOptions.heartbeatAllowedMisses < 2 ^ 57 ↔
    if 0 < s.heartbeatSilence then
      s.heartbeatSilence ≤ (2 ^ 57 - 1) * s.heartbeatCycle ∨ 2 ^ 63 < s.heartbeatSilence + s.heartbeatCycle
    else s.heartbeatMissed < 2 ^ 57 := by
  split
  · next hs =>
    rw [h.allowedMisses hs]
    split
    · rw [max_lt_iff, Int.ediv_lt_iff_lt_mul h.cycle]
      omega
    · omega
  · next hs =>
    simp only [Options.normalizeHeartbeatOptions, if_pos (Int.not_lt.1 hs), Options.heartbeatAllowedMisses]
    unfold defaultHeartbeatMissed
    split <;> omega

end Window

theorem two_le_allowed (s : Options) : 2 ≤ s.heartbeatAllowedMisses := by
  unfold Options.heartbeatAllowedMisses defaultHeartbeatMissed
  split <;> omega

theorem heartbeatCycle_normalize (s : Options) :
    s.normalizeHeartbeatOptions.heartbeatCycle = s.heartbeatCycle := by
  unfold Options.normalizeHeartbeatOptions
  split <;> rfl

/-- **The window is sound** for exactly the options whose sum and whose shift fit 64 bits. -/
theorem heartbeat_window_iff (opts : List SessionOption) :
    let s := (applyAll opts).normalizeHeartbeatOptions
    (2 ≤ s.heartbeatAllowedMisses ∧
      (∀ pre d, opts = pre ++ [.withNotificationSilenceTimeout d] →
        d.toInt ≤ s.heartbeatAllowedMisses * s.heartbeatCycle) ∧
      Bounded s.heartbeatAllowedMisses s.heartbeatCycle) ↔ Fits opts := by
  have h := loaded_applyAll opts
  have h2 := two_le_allowed (applyAll opts).normalizeHeartbeatOptions
  have hbound : Bounded (applyAll opts).normalizeHeartbeatOptions.heartbeatAllowedMisses
      (applyAll opts).heartbeatCycle ↔ _ := (bounded_iff h2 h.allowedMisses_lt h.cycle).trans h.allowed_lt_iff
  have hlast : ∀ pre d, opts = pre ++ [.withNotificationSilenceTimeout d] →
      (d.toInt ≤ (applyAll opts).normalizeHeartbeatOptions.heartbeatAllowedMisses *
        (applyAll opts).heartbeatCycle ↔ d.toInt + (applyAll opts).heartbeatCycle ≤ 2 ^ 63) := by
    intro pre d heq
    by_cases hd : d.toInt ≤ 0
    · have hpos := Int.mul_nonneg (le_trans (by decide) h2) h.cycle.le
      have hshort := h.short
      unfold maxADSCycleTime at hshort
      exact iff_of_true (hd.trans hpos) (by omega)
    · have hsilence : (applyAll opts).heartbeatSilence = d.toInt := by
        rw [heq, applyAll, List.foldl_append]
        simp [SessionOption.apply, hd]
      rw [← hsilence]
      exact h.silence_le_iff (by omega)
  simp only [heartbeatCycle_normalize, hbound, h2, true_and]
  constructor
  · exact fun ⟨hs, hw⟩ => ⟨fun pre d heq => (hlast pre d heq).1 (hs pre d heq), hw⟩
  · exact fun hf => ⟨fun pre d heq => (hlast pre d heq).2 (hf.silence pre d heq), hf.window⟩

/-- A silence timeout of 292 years makes a window of two cycles; and with `2 ^ 57` misses the window
    after six failures is negative. -/
theorem window_wraps :
    let s := (applyAll [.withNotificationSilenceTimeout Int64.maxValue]).normalizeHeartbeatOptions
    let s' := (applyAll [.withNotificationHeartbeat 0 (2 ^ 57)]).normalizeHeartbeatOptions
    s.heartbeatAllowedMisses * s.heartbeatCycle = 4 * 10 ^ 9 ∧
      heartbeatAllowedTicks64 s'.heartbeatAllowedMisses 6 s'.heartbeatCycle = -2 ^ 63 := by
  decide +kernel

end GoAds.Heartbeat
