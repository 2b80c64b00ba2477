import GoAds.Client.Rpc
import GoAds.Symbols.Version

/-!
# `Heartbeat.Beats` — the symbol version on the heartbeat

The payload of a beat is the PLC's symbol version, one byte that counts the online changes and wraps.
`consumeHeartbeat` compares it with the recorded version, and records it when it differs.

The recorded version 0 stands for "unknown": nothing is compared with it, and nothing is recorded over it.
So the beat that carries a wrapped counter is detected, and it is the last that is.
-/

namespace GoAds.Heartbeat.Beats

open List

/-- `ReturnCodeDeviceSymbolVersionInvalid`. -/
def deviceSymbolVersionInvalid : ReturnCode := 0x711

/-- The fields of the session that a beat reads and writes. -/
structure Session where
  heartbeatHandle : UInt32
  heartbeatBeats : Nat
  heartbeatLastNs : Int
  symbolVersion : UInt8

/-- What a sample led to: whether it was a beat, and the code `handleStaleDetection` was invoked with. -/
structure Outcome where
  beat : Bool
  detected : Option ReturnCode

/-- `consumeHeartbeat`, at a time. -/
def consumeHeartbeat (now : Int) (handle : UInt32) (content : List UInt8) (s : Session) :
    Outcome × Session :=
  if handle = 0 ∨ handle ≠ s.heartbeatHandle then (⟨false, none⟩, s)
  else
    let s := { s with heartbeatBeats := s.heartbeatBeats + 1, heartbeatLastNs := now }
    match content with
    | [] => (⟨true, none⟩, s)
    | version :: _ =>
      if s.symbolVersion ≠ 0 ∧ version ≠ s.symbolVersion then
        (⟨true, some deviceSymbolVersionInvalid⟩, { s with symbolVersion := version })
      else (⟨true, none⟩, s)

/-- A beat as it arrives: when, and its payload. -/
structure Beat where
  now : Int
  version : UInt8
  rest : List UInt8 := []

/-- A beat of the session's own heartbeat is consumed. -/
def Session.beat (s : Session) (b : Beat) : Outcome × Session :=
  consumeHeartbeat b.now s.heartbeatHandle (b.version :: b.rest) s

/-- For each of the beats, whether `handleStaleDetection` is invoked on it. -/
def detections (s : Session) : List Beat → List Bool
  | [] => []
  | b :: bs => (s.beat b).1.detected.isSome :: detections (s.beat b).2 bs

/-- For each of the beats, whether its version differs from the one before. -/
def changes (previous : UInt8) : List Beat → List Bool
  | [] => []
  | b :: bs => decide (b.version ≠ previous) :: changes b.version bs

variable {s : Session} {b : Beat} {bs : List Beat}

/-! ## One beat -/

section

variable (hh : s.heartbeatHandle ≠ 0)

include hh

theorem beat_of_changed (hv : s.symbolVersion ≠ 0)
    (hb : b.version ≠ s.symbolVersion) : s.beat b = (⟨true, some deviceSymbolVersionInvalid⟩, { s with
        heartbeatBeats := s.heartbeatBeats + 1, heartbeatLastNs := b.now, symbolVersion := b.version }) := by
  unfold Session.beat consumeHeartbeat
  rw [if_neg (by simp [hh])]
  exact if_pos ⟨hv, hb⟩

theorem beat_of_same (hb : s.symbolVersion = 0 ∨ b.version = s.symbolVersion) : s.beat b = (⟨true, none⟩,
      { s with heartbeatBeats := s.heartbeatBeats + 1, heartbeatLastNs := b.now }) := by
  unfold Session.beat consumeHeartbeat
  rw [if_neg (by simp [hh])]
  exact if_neg (by rintro ⟨hv, hne⟩; exact hb.elim hv hne)

theorem handle_beat : (s.beat b).2.heartbeatHandle = s.heartbeatHandle := by
  by_cases hb : s.symbolVersion = 0 ∨ b.version = s.symbolVersion
  · rw [beat_of_same hh hb]
  · rw [not_or] at hb
    rw [beat_of_changed hh hb.1 hb.2]

/-- While a version is known, it is that of the last beat, and a beat is detected when it differs. -/
theorem beat_of_known (hv : s.symbolVersion ≠ 0) :
    (s.beat b).1.detected.isSome = decide (b.version ≠ s.symbolVersion) ∧
      (s.beat b).2.symbolVersion = b.version := by
  by_cases hb : b.version = s.symbolVersion
  · rw [beat_of_same hh (.inr hb)]
    simp [hb]
  · rw [beat_of_changed hh hv hb]
    simp [hb]

/-- `consumeHeartbeat` is the one of the system with loads, where it is a label. -/
theorem consumeHeartbeat_version (strategy : Symbols.Version.Strategy)
    (c : Symbols.Version.Shared) (hc : c.symbolVersion = s.symbolVersion) :
    Symbols.Version.consumeHeartbeat strategy c b.version = if (s.beat b).1.detected.isSome then
        Symbols.Version.handleStaleDetection strategy { c with symbolVersion := (s.beat b).2.symbolVersion }
      else c := by
  unfold Symbols.Version.consumeHeartbeat
  rw [hc]
  by_cases hb : s.symbolVersion = 0 ∨ b.version = s.symbolVersion
  · rw [beat_of_same hh hb, if_neg (by rintro ⟨hv, hne⟩; exact hb.elim hv hne)]
    rfl
  rw [not_or] at hb
  rw [beat_of_changed hh hb.1 hb.2, if_pos hb]
  rfl

/-! ## Sequences of beats -/

/-- Without a known version nothing is detected, now or later. -/
theorem detections_of_unknown (hv : s.symbolVersion = 0) : detections s bs = bs.map fun _ => false := by
  induction bs generalizing s with
  | nil => rfl
  | cons b bs ih =>
    rw [detections, beat_of_same hh (.inl hv), map_cons]
    congr 1
    exact ih hh hv

end

/-- Beats that all carry the version before them are no changes, and no others are. -/
theorem changes_eq_none {v} : changes v bs = (bs.map fun _ => false) ↔ ∀ b ∈ bs, b.version = v := by
  induction bs generalizing v with
  | nil => simp [changes]
  | cons b bs ih =>
    rw [changes, map_cons, cons.injEq, ih]
    constructor
    · rintro ⟨hb, hbs⟩ b' hb'
      have hbv : b.version = v := by simpa using hb
      rcases mem_cons.1 hb' with rfl | hb'
      · exact hbv
      · exact (hbs b' hb').trans hbv
    intro h
    have hbv := h b (mem_cons_self ..)
    refine ⟨by simpa using hbv, fun b' hb' => ?_⟩
    exact (h b' (mem_cons_of_mem _ hb')).trans hbv.symm

/-- No beat follows one that carries 0, unless it carries 0 too. -/
def ZeroIsLast (bs : List Beat) : Prop :=
  ∀ pre b post, bs = pre ++ b :: post → b.version = 0 → ∀ b' ∈ post, b'.version = 0

theorem zeroIsLast_nil : ZeroIsLast [] := by
  intro pre b post heq
  exact absurd heq.symm (append_ne_nil_of_right_ne_nil _ (cons_ne_nil _ _))

theorem zeroIsLast_cons :
    ZeroIsLast (b :: bs) ↔ (b.version = 0 → ∀ b' ∈ bs, b'.version = 0) ∧ ZeroIsLast bs := by
  constructor
  · intro h
    refine ⟨h [] b bs rfl, fun pre b' post heq => h (b :: pre) b' post ?_⟩
    rw [heq, cons_append]
  rintro ⟨hb, hbs⟩ pre b' post heq hzero
  cases pre with
  | nil =>
    obtain ⟨rfl, rfl⟩ := cons.inj heq
    exact hb hzero
  | cons x pre =>
    obtain ⟨rfl, rfl⟩ := cons.inj heq
    exact hbs pre b' post rfl hzero

theorem zeroIsLast_of_all (h : ∀ b ∈ bs, b.version = 0) : ZeroIsLast bs := by
  intro pre b post heq _ b' hb'
  apply h
  rw [heq]
  exact mem_append_right _ (mem_cons_of_mem _ hb')

/-- From an unknown version on, the beats are detected as they should be only if all carry 0. -/
theorem detections_of_unknown_iff (hh : s.heartbeatHandle ≠ 0) (hv : s.symbolVersion = 0) :
    detections s bs = changes 0 bs ↔ ∀ b ∈ bs, b.version = 0 := by
  rw [detections_of_unknown hh hv, eq_comm, changes_eq_none]

theorem detections_of_known_iff (s : Session) (hh : s.heartbeatHandle ≠ 0) (hv : s.symbolVersion ≠ 0)
    (bs : List Beat) : detections s bs = changes s.symbolVersion bs ↔ ZeroIsLast bs := by
  induction bs generalizing s with
  | nil => simp [detections, changes, zeroIsLast_nil]
  | cons b bs ih =>
    obtain ⟨hdet, hver⟩ := beat_of_known (b := b) hh hv
    have hh' : (s.beat b).2.heartbeatHandle ≠ 0 := by rwa [handle_beat hh]
    rw [detections, changes, hdet, cons.injEq, zeroIsLast_cons]
    by_cases hb : b.version = 0
    · -- from here on the version is unknown
      rw [hb, detections_of_unknown_iff hh' (hver.trans hb)]
      constructor
      · rintro ⟨-, hall⟩
        exact ⟨fun _ => hall, zeroIsLast_of_all hall⟩
      · rintro ⟨hall, -⟩
        exact ⟨rfl, hall rfl⟩
    have := ih (s.beat b).2 hh' (by rwa [hver])
    rw [hver] at this
    rw [this]
    simp [hb]

/-- **Every change is detected, and nothing else is, exactly when** no version other than 0 follows the
    version 0, be it the recorded one or that of a beat. -/
theorem detections_eq_changes_iff (s : Session) (hh : s.heartbeatHandle ≠ 0) (bs : List Beat) :
    detections s bs = changes s.symbolVersion bs ↔
      (s.symbolVersion = 0 → ∀ b ∈ bs, b.version = 0) ∧ ZeroIsLast bs := by
  by_cases hv : s.symbolVersion = 0
  · rw [hv, detections_of_unknown_iff hh hv]
    constructor
    · intro hall
      exact ⟨fun _ => hall, zeroIsLast_of_all hall⟩
    · rintro ⟨hall, -⟩
      exact hall rfl
  · rw [detections_of_known_iff s hh hv bs]
    simp [hv]

/-- Versions that only grow, up to the wrap. -/
theorem detections_eq_changes_growing :
    detections ⟨7, 0, 0, 5⟩ [⟨1, 5, []⟩, ⟨2, 6, []⟩, ⟨3, 6, []⟩, ⟨4, 0, []⟩, ⟨5, 0, []⟩] =
      [false, true, false, true, false] := by
  have h := (detections_eq_changes_iff ⟨7, 0, 0, 5⟩ (by decide)
    [⟨1, 5, []⟩, ⟨2, 6, []⟩, ⟨3, 6, []⟩, ⟨4, 0, []⟩, ⟨5, 0, []⟩]).2 ?_
  · rw [h]
    decide
  · simp [zeroIsLast_cons, zeroIsLast_nil]

/-- After the wrap of the counter through 0, the next online change is missed. -/
theorem change_after_wrap_missed : detections ⟨7, 0, 0, 255⟩ [⟨1, 0, []⟩, ⟨2, 1, []⟩] = [true, false] ∧
      changes 255 [⟨1, 0, []⟩, ⟨2, 1, []⟩] = [true, true] := by
  decide

end GoAds.Heartbeat.Beats
