import GoAds.Session.System
import Mathlib.Data.List.Induction
import Mathlib.Data.List.Nodup

/-!
# `Session.Counters` — the state machine of a session and its generation counters

`transitionTo` and `transitionToOnce` hold `mu` from the load of the state to their return; the state
and the two counters are atomics that others read and `bumpEpoch` adds to without the lock, and
`enterConnected` adds to `connectedGen` after its transition has given the lock back.  So a step here is
one access to a shared field, and the calls of any number of goroutines interleave at every step.

* `log` is history: what the calls did to the state and returned, in order.  No step reads it.
* A counter is of any type with a successor: in the source a 64-bit word.  What the counters are for is said
  of natural numbers, which the words are until one wraps.
-/

namespace GoAds.Session.Counters

open Interleaving List

/-! ## Calls -/

/-- The calls that go through the lock. -/
inductive Op
  | transitionTo (want : SessionState)
  | transitionToOnce (want : SessionState)
  | enterConnected
  deriving DecidableEq, Repr

def Op.want : Op → SessionState
  | transitionTo want | transitionToOnce want => want
  | enterConnected => .connected

/-- What is returned when the state is `want` already. -/
def Op.reentry : Op → Bool
  | transitionToOnce _ => false
  | _ => true

/-- Where a goroutine is.  `prior` is the state that the call has loaded. -/
inductive Loc
  | idle
  /-- At `mu.Lock`. -/
  | waiting (op : Op)
  | locked (op : Op)
  | loaded (op : Op) (prior : SessionState)
  /-- The new state is stored, `epoch` is not yet counted up. -/
  | stored (op : Op) (prior : SessionState)
  /-- At the deferred `mu.Unlock`. -/
  | leaving (op : Op) (prior : SessionState) (ok : Bool)
  /-- In `enterConnected`, before it adds to `connectedGen`. -/
  | announcing

/-- What a call did to the state, at which epoch, and what it returned. -/
inductive Event (ι κ : Type)
  | changed (who : ι) (op : Op) (prior : SessionState) (epoch : κ)
  | returned (who : ι) (op : Op) (prior : SessionState) (ok : Bool)

/-- `sessionFSM` and `connectedGen`. -/
structure Shared (ι κ : Type) where
  /-- Who holds `mu`. -/
  mu : Option ι
  value : SessionState
  epoch : κ
  connectedGen : κ
  log : List (Event ι κ)

/-- The start of a call, a call of `bumpEpoch`, or the next access of the call under way. -/
inductive Act
  | call (op : Op)
  | bumpEpoch
  | step

/-- `enterConnected` counts the generation when it comes from a connect or a reconnect. -/
def Op.Counts (op : Op) (prior : SessionState) : Prop :=
  op = .enterConnected ∧ (prior = .connecting ∨ prior = .reconnecting)

instance (op : Op) (prior : SessionState) : Decidable (op.Counts prior) :=
  inferInstanceAs (Decidable (_ ∧ _))

section Machine

variable {ι κ : Type} [Add κ] [OfNat κ 1]

/-- One access of goroutine `t`. -/
def act (t : ι) : Loc → Shared ι κ → Act → Option (Loc × Shared ι κ)
  | .idle, s, .call op => some (.waiting op, s)
  | .idle, s, .bumpEpoch => some (.idle, { s with epoch := s.epoch + 1 })
  | .waiting op, s, .step => if s.mu = none then some (.locked op, { s with mu := some t }) else none
  | .locked op, s, .step => some (.loaded op s.value, s)
  | .loaded op prior, s, .step =>
    if prior = op.want then some (.leaving op prior op.reentry, s)
    else if op.want ∈ allowedTransitions prior then
      some (.stored op prior,
        { s with value := op.want, log := s.log ++ [.changed t op prior s.epoch] })
    else some (.leaving op prior false, s)
  | .stored op prior, s, .step =>
    some (.leaving op prior true,
      if op.want = .connected then { s with epoch := s.epoch + 1 } else s)
  | .leaving op prior ok, s, .step =>
    some (if ok = true ∧ op.Counts prior then .announcing else .idle,
      { s with mu := none, log := s.log ++ [.returned t op prior ok] })
  | .announcing, s, .step => some (.idle, { s with connectedGen := s.connectedGen + 1 })
  | _, _, _ => none

abbrev System (ι κ : Type) := Conf ι (Shared ι κ) Loc

def start (value : SessionState) (epoch connectedGen : κ) : System ι κ :=
  ⟨⟨none, value, epoch, connectedGen, []⟩, fun _ => .idle⟩

/-- What an access does: one case for every line of the source. -/
inductive Access (t : ι) (s : Shared ι κ) : Loc → Act → Loc → Shared ι κ → Prop
  | call (op : Op) : Access t s .idle (.call op) (.waiting op) s
  | bumpEpoch : Access t s .idle .bumpEpoch .idle { s with epoch := s.epoch + 1 }
  | lock (op : Op) (hmu : s.mu = none) : Access t s (.waiting op) .step (.locked op) { s with mu := some t }
  | load (op : Op) : Access t s (.locked op) .step (.loaded op s.value) s
  | same (op : Op) (prior : SessionState) (h : prior = op.want) :
      Access t s (.loaded op prior) .step (.leaving op prior op.reentry) s
  | store (op : Op) (prior : SessionState) (h : prior ≠ op.want) (hedge : op.want ∈ allowedTransitions prior) :
      Access t s (.loaded op prior) .step (.stored op prior)
        { s with value := op.want, log := s.log ++ [.changed t op prior s.epoch] }
  | refuse (op : Op) (prior : SessionState) :
      Access t s (.loaded op prior) .step (.leaving op prior false) s
  | count (op : Op) (prior : SessionState) (h : op.want = .connected) :
      Access t s (.stored op prior) .step (.leaving op prior true) { s with epoch := s.epoch + 1 }
  | skip (op : Op) (prior : SessionState) (h : op.want ≠ .connected) :
      Access t s (.stored op prior) .step (.leaving op prior true) s
  | unlock (op : Op) (prior : SessionState) (ok : Bool) :
      Access t s (.leaving op prior ok) .step (if ok = true ∧ op.Counts prior then .announcing else .idle)
        { s with mu := none, log := s.log ++ [.returned t op prior ok] }
  | announce : Access t s .announcing .step .idle { s with connectedGen := s.connectedGen + 1 }

theorem access_of_act {t : ι} {l l' : Loc} {s s' : Shared ι κ} {a : Act}
    (h : act t l s a = some (l', s')) : Access t s l a l' s' := by
  cases a with
  | call op =>
    cases l with
    | idle =>
      cases h
      exact .call op
    | _ => cases h
  | bumpEpoch =>
    cases l with
    | idle =>
      cases h
      exact .bumpEpoch
    | _ => cases h
  | step =>
    cases l with
    | idle => cases h
    | waiting op =>
      rw [act] at h
      split at h <;> cases h
      next hmu => exact .lock op hmu
    | locked op =>
      cases h
      exact .load op
    | loaded op prior =>
      rw [act] at h
      split at h
      · next heq =>
        cases h
        exact .same op prior heq
      next hne =>
      split at h <;> cases h
      · next hedge => exact .store op prior hne hedge
      · exact .refuse op prior
    | stored op prior =>
      cases h
      by_cases hwant : op.want = .connected
      · rw [if_pos hwant]
        exact .count op prior hwant
      · rw [if_neg hwant]
        exact .skip op prior hwant
    | leaving op prior ok =>
      cases h
      exact .unlock op prior ok
    | announcing =>
      cases h
      exact .announce

end Machine

/-! ## The history of the state -/

section History

variable {ι : Type}

/-- The log of a machine that started in `v₀`, and the state it leads to: every change is an edge from
    the state before it, and a call of `transitionToOnce` that wins has just made the last change. -/
inductive History (v₀ : SessionState) : List (Event ι Nat) → SessionState → Prop
  | nil : History v₀ [] v₀
  | changed {log : List (Event ι Nat)} {v : SessionState} (who : ι) (op : Op) (epoch : Nat)
      (init : History v₀ log v) (hne : v ≠ op.want) (hedge : op.want ∈ allowedTransitions v) :
      History v₀ (log ++ [.changed who op v epoch]) op.want
  | returned {log : List (Event ι Nat)} {v : SessionState} (who : ι) (op : Op) (prior : SessionState)
      (ok : Bool) (init : History v₀ log v)
      (hwon : ok = true → op.reentry = false →
        ∃ log' epoch, log = log' ++ [.changed who op prior epoch]) :
      History v₀ (log ++ [.returned who op prior ok]) v

variable {v₀ v w : SessionState} {log pre mid post : List (Event ι Nat)} {who : ι} {op : Op}
  {prior : SessionState} {epoch : Nat} {ok : Bool}

theorem History.of_changed (h : History v₀ (log ++ [.changed who op prior epoch]) v) :
    History v₀ log prior ∧ prior ≠ op.want ∧ op.want ∈ allowedTransitions prior ∧ v = op.want := by
  generalize heq : log ++ [Event.changed who op prior epoch] = log' at h
  cases h with
  | nil => simp at heq
  | changed who' op' epoch' init hne hedge =>
    obtain ⟨rfl, hlast⟩ := append_inj' heq rfl
    simp only [cons.injEq, Event.changed.injEq, and_true] at hlast
    obtain ⟨rfl, rfl, rfl, rfl⟩ := hlast
    exact ⟨init, hne, hedge, rfl⟩
  | returned =>
    obtain ⟨-, hlast⟩ := append_inj' heq rfl
    simp at hlast

theorem History.of_returned (h : History v₀ (log ++ [.returned who op prior ok]) v) :
    History v₀ log v ∧ (ok = true → op.reentry = false →
      ∃ log' epoch, log = log' ++ [.changed who op prior epoch]) := by
  generalize heq : log ++ [Event.returned who op prior ok] = log' at h
  cases h with
  | nil => simp at heq
  | changed =>
    obtain ⟨-, hlast⟩ := append_inj' heq rfl
    simp at hlast
  | returned who' op' prior' ok' init hwon =>
    obtain ⟨rfl, hlast⟩ := append_inj' heq rfl
    simp only [cons.injEq, Event.returned.injEq, and_true] at hlast
    obtain ⟨rfl, rfl, rfl, rfl⟩ := hlast
    exact ⟨init, hwon⟩

theorem History.init (e : Event ι Nat) (h : History v₀ (log ++ [e]) v) : ∃ u, History v₀ log u := by
  cases e with
  | changed who op prior => exact ⟨prior, h.of_changed.1⟩
  | returned => exact ⟨v, h.of_returned.1⟩

theorem History.front (h : History v₀ (pre ++ post) v) : ∃ u, History v₀ pre u := by
  induction post using reverseRecOn generalizing v with
  | nil =>
    rw [append_nil] at h
    exact ⟨v, h⟩
  | append_singleton post e ih =>
    rw [← append_assoc] at h
    obtain ⟨u, hu⟩ := h.init e
    exact ih hu

theorem History.unique (h : History v₀ log v) (h' : History v₀ log w) : v = w := by
  induction h generalizing w with
  | nil =>
    generalize heq : ([] : List (Event ι Nat)) = log at h'
    cases h' with
    | nil => rfl
    | changed | returned => simp at heq
  | changed => exact h'.of_changed.2.2.2.symm
  | returned who op prior ok init hwon ih => exact ih h'.of_returned.1

/-- Between a state and another one, the first was left. -/
theorem History.left (hpre : History v₀ pre w) (h : History v₀ (pre ++ mid) v) (hne : v ≠ w) :
    ∃ who op epoch, .changed who op w epoch ∈ mid := by
  induction mid using reverseRecOn generalizing v with
  | nil =>
    rw [append_nil] at h
    exact absurd (h.unique hpre) hne
  | append_singleton mid e ih =>
    rw [← append_assoc] at h
    cases e with
    | changed who op prior epoch =>
      by_cases hprior : prior = w
      · exact ⟨who, op, epoch, by simp [hprior]⟩
      · obtain ⟨who', op', epoch', hmem⟩ := ih h.of_changed.1 hprior
        exact ⟨who', op', epoch', mem_append_left _ hmem⟩
    | returned =>
      obtain ⟨who', op', epoch', hmem⟩ := ih h.of_returned.1 hne
      exact ⟨who', op', epoch', mem_append_left _ hmem⟩

theorem History.edge (h : History v₀ log v) (hmem : .changed who op prior epoch ∈ log) :
    op.want ∈ allowedTransitions prior := by
  obtain ⟨pre, post, rfl⟩ := append_of_mem hmem
  rw [append_cons] at h
  obtain ⟨u, hu⟩ := h.front
  exact hu.of_changed.2.2.1

/-- **Between two calls of `transitionToOnce` that win the same state, the state was left.** -/
theorem History.left_between {a b p p'}
    (h : History v₀ (pre ++ .returned a (.transitionToOnce w) p true ::
      (mid ++ .returned b (.transitionToOnce w) p' true :: post)) v) :
    ∃ who op epoch, .changed who op w epoch ∈ mid := by
  -- the first winner leaves the state at `w`
  have hfirst : History v₀ (pre ++ [.returned a (.transitionToOnce w) p true]) w := by
    rw [append_cons] at h
    obtain ⟨u, hu⟩ := h.front
    obtain ⟨hpre, hwon⟩ := hu.of_returned
    obtain ⟨log', epoch, rfl⟩ := hwon rfl rfl
    rw [hpre.of_changed.2.2.2] at hu
    exact hu
  -- the second one finds it elsewhere
  rw [append_cons, ← append_assoc, append_cons] at h
  obtain ⟨u, hu⟩ := h.front
  obtain ⟨hmid, hwon⟩ := hu.of_returned
  obtain ⟨log', epoch, heq⟩ := hwon rfl rfl
  rcases eq_nil_or_concat' mid with rfl | ⟨mid, x, rfl⟩
  · rw [append_nil] at heq
    have hlast := (append_inj' heq rfl).2
    simp at hlast
  rw [← append_assoc] at heq
  obtain ⟨hlog, hlast⟩ := append_inj' heq rfl
  obtain rfl := singleton_injective hlast
  rw [← append_assoc] at hmid
  obtain ⟨hbefore, hne, -, -⟩ := hmid.of_changed
  obtain ⟨who', op', epoch', hmem⟩ := hfirst.left hbefore hne
  exact ⟨who', op', epoch', mem_append_left _ hmem⟩

end History

/-! ## The lock -/

section Lock

variable {ι : Type}

/-- Every change into Connected in the log was made at a smaller epoch. -/
def Risen (log : List (Event ι Nat)) (epoch : Nat) : Prop :=
  ∀ who op prior e, .changed who op prior e ∈ log → op.want = .connected → e < epoch

/-- What holds where a goroutine is: the lock is its own from the load to the return, so the state is the
    one it has loaded or stored, and its change is the last one. -/
def Loc.Holds (s : Shared ι Nat) (u : ι) : Loc → Prop
  | idle | waiting _ | announcing => s.mu ≠ some u
  | locked _ => s.mu = some u ∧ Risen s.log s.epoch
  | loaded _ prior => s.mu = some u ∧ Risen s.log s.epoch ∧ s.value = prior
  | stored op prior => s.mu = some u ∧
      ∃ log e, s.log = log ++ [.changed u op prior e] ∧ e ≤ s.epoch ∧ Risen log s.epoch
  | leaving op prior ok => s.mu = some u ∧ Risen s.log s.epoch ∧
      (ok = true → op.reentry = false → ∃ log e, s.log = log ++ [.changed u op prior e])

/-- The log is the history of the state, and while the lock is free every change is complete. -/
structure Coherent (v₀ : SessionState) (s : Shared ι Nat) : Prop where
  history : History v₀ s.log s.value
  risen : s.mu = none → Risen s.log s.epoch

variable {v₀ : SessionState} {s s' : Shared ι Nat} {t u : ι} {l l' k : Loc} {a : Act}

variable {log : List (Event ι Nat)} {n : Nat}

theorem Risen.mono {m} (h : Risen log m) (hle : m ≤ n) : Risen log n :=
  fun who op prior e hmem hwant => Nat.lt_of_lt_of_le (h who op prior e hmem hwant) hle

theorem Risen.returned (h : Risen log n) (who : ι) (op : Op)
    (prior : SessionState) (ok : Bool) : Risen (log ++ [.returned who op prior ok]) n := by
  intro who' op' prior' e hmem hwant
  rcases mem_append.1 hmem with hmem | hmem
  · exact h who' op' prior' e hmem hwant
  · simp at hmem

/-- A change is complete when it is not into Connected or the epoch has grown since. -/
theorem Risen.changed (h : Risen log n) {who op prior e} (he : op.want = .connected → e < n) :
    Risen (log ++ [.changed who op prior e]) n := by
  intro who' op' prior' e' hmem hwant
  rcases mem_append.1 hmem with hmem | hmem
  · exact h who' op' prior' e' hmem hwant
  simp only [mem_singleton, Event.changed.injEq] at hmem
  obtain ⟨rfl, rfl, rfl, rfl⟩ := hmem
  exact he hwant

theorem Loc.Holds.mono (h : k.Holds s u) (hmu : s'.mu = s.mu) (hvalue : s'.value = s.value)
    (hlog : s'.log = s.log) (hepoch : s.epoch ≤ s'.epoch) : k.Holds s' u := by
  cases k with
  | idle | waiting | announcing => exact fun heq => h (hmu ▸ heq)
  | locked =>
    refine ⟨hmu.trans h.1, ?_⟩
    rw [hlog]
    exact h.2.mono hepoch
  | loaded =>
    refine ⟨hmu.trans h.1, ?_, hvalue.trans h.2.2⟩
    rw [hlog]
    exact h.2.1.mono hepoch
  | stored =>
    obtain ⟨hown, log, e, heq, hle, hrisen⟩ := h
    exact ⟨hmu.trans hown, log, e, hlog.trans heq, Nat.le_trans hle hepoch, hrisen.mono hepoch⟩
  | leaving =>
    obtain ⟨hown, hrisen, hwon⟩ := h
    refine ⟨hmu.trans hown, ?_, ?_⟩
    · rw [hlog]
      exact hrisen.mono hepoch
    · rw [hlog]
      exact hwon

/-- Who does not hold the lock asserts nothing else. -/
theorem Loc.Holds.outside (h : k.Holds s u) (hmu : s.mu ≠ some u) (hmu' : s'.mu ≠ some u) : k.Holds s' u := by
  cases k with
  | idle | waiting | announcing => exact hmu'
  | locked | loaded | stored | leaving => exact absurd h.1 hmu

/-- The moving goroutine establishes what holds where it gets to. -/
theorem Access.own (h : Access t s l a l' s') (hI : Coherent v₀ s) (hl : l.Holds s t) :
    Coherent v₀ s' ∧ l'.Holds s' t := by
  cases h with
  | call => exact ⟨hI, hl⟩
  | bumpEpoch => exact ⟨⟨hI.history, fun hmu => (hI.risen hmu).mono (Nat.le_succ _)⟩, hl⟩
  | lock op hmu => exact ⟨⟨hI.history, fun hnone => by cases hnone⟩, rfl, hI.risen hmu⟩
  | load => exact ⟨hI, hl.1, hl.2, rfl⟩
  | same =>
    refine ⟨hI, hl.1, hl.2.1, fun hok hre => ?_⟩
    rw [hok] at hre
    cases hre
  | store op prior hne hedge =>
    obtain ⟨hown, hrisen, rfl⟩ := hl
    refine ⟨⟨.changed t op s.epoch hI.history hne hedge, fun hnone => ?_⟩, hown, s.log, s.epoch, rfl,
      Nat.le_refl _, hrisen⟩
    rw [show s.mu = some t from hown] at hnone
    cases hnone
  | refuse => exact ⟨hI, hl.1, hl.2.1, fun hok => by cases hok⟩
  | count =>
    obtain ⟨hown, log, e, hlog, hle, hrisen⟩ := hl
    have hrisen' : Risen s.log (s.epoch + 1) := by
      rw [hlog]
      exact (hrisen.mono (Nat.le_succ _)).changed fun _ => Nat.lt_succ_of_le hle
    exact ⟨⟨hI.history, fun _ => hrisen'⟩, hown, hrisen', fun _ _ => ⟨log, e, hlog⟩⟩
  | skip op prior hwant =>
    obtain ⟨hown, log, e, hlog, hle, hrisen⟩ := hl
    have hrisen' : Risen s.log s.epoch := by
      rw [hlog]
      exact hrisen.changed fun heq => absurd heq hwant
    exact ⟨hI, hown, hrisen', fun _ _ => ⟨log, e, hlog⟩⟩
  | unlock op prior ok =>
    obtain ⟨hown, hrisen, hwon⟩ := hl
    refine ⟨⟨.returned t op prior ok hI.history hwon, fun _ => hrisen.returned t op prior ok⟩, ?_⟩
    split
    · exact fun hmu => by cases hmu
    · exact fun hmu => by cases hmu
  | announce => exact ⟨⟨hI.history, hI.risen⟩, hl⟩

/-- Nobody else is disturbed: only the holder of the lock writes what others rely on. -/
theorem Access.others (h : Access t s l a l' s') (hl : l.Holds s t) (hne : u ≠ t) (hk : k.Holds s u) :
    k.Holds s' u := by
  have hother : ∀ {x : Option ι}, x = some t → x ≠ some u := by
    rintro x rfl heq
    exact hne (Option.some.inj heq).symm
  cases h with
  | call | load | same | refuse | skip => exact hk
  | bumpEpoch | count => exact hk.mono rfl rfl rfl (Nat.le_succ _)
  | lock op hmu =>
    refine hk.outside ?_ (hother rfl)
    rw [hmu]
    exact fun heq => by cases heq
  | store => exact hk.outside (hother hl.1) (hother hl.1)
  | unlock => exact hk.outside (hother hl.1) fun heq => by cases heq
  | announce => exact hk.mono rfl rfl rfl (Nat.le_refl _)

/-- What holds of every configuration of a run. -/
abbrev Locked (v₀ : SessionState) (c : System ι Nat) : Prop := c.Inv (Coherent v₀) fun s u l => l.Holds s u

theorem locked_start (value : SessionState) (epoch connectedGen : Nat) :
    Locked value (start value epoch connectedGen : System ι Nat) := by
  refine ⟨⟨.nil, ?_⟩, ?_⟩
  · intro _ who op prior e hmem
    cases hmem
  · intro u hmu
    cases hmu

theorem locked_step [DecidableEq ι] {c c' : System ι Nat} {b : ι × Act} (h : Locked v₀ c)
    (hs : Conf.exec act c b = some c') : Locked v₀ c' := by
  obtain ⟨t, a⟩ := b
  apply Conf.inv_of_exec hs
  · exact fun l' s' ha => (access_of_act ha).own h.shared (h.loc t)
  · exact fun l' s' ha u hu => (access_of_act ha).others (h.loc t) hu (h.loc u)

end Lock

/-! ## The generations -/

section Generations

variable {ι : Type} {s s' : Shared ι Nat} {t : ι} {l l' : Loc} {a : Act}

/-- A goroutine that has made a change which counts and has not counted it. -/
def Loc.owes : Loc → Bool
  | stored op prior => decide (op.Counts prior)
  | leaving op prior ok => ok && decide (op.Counts prior)
  | announcing => true
  | _ => false

/-- A change into Connected by `enterConnected` from Connecting or Reconnecting. -/
def Event.counts {κ : Type} : Event ι κ → Bool
  | changed _ op prior _ => decide (op.Counts prior)
  | returned .. => false

/-- What a step does to the changes that count: nothing, or it makes one, or it counts one. -/
theorem Access.owes (h : Access t s l a l' s') : (l'.owes = l.owes ∧ s'.connectedGen = s.connectedGen ∧
      s'.log.countP Event.counts = s.log.countP Event.counts) ∨
    (l.owes = false ∧ l'.owes = true ∧ s'.connectedGen = s.connectedGen ∧
      s'.log.countP Event.counts = s.log.countP Event.counts + 1) ∨
    (l.owes = true ∧ l'.owes = false ∧ s'.connectedGen = s.connectedGen + 1 ∧
      s'.log.countP Event.counts = s.log.countP Event.counts) := by
  cases h with
  | call | bumpEpoch | lock | load | refuse | count | skip => exact .inl ⟨rfl, rfl, rfl⟩
  | same op prior heq =>
    -- who finds the state Connected does not come from Connecting
    have hnot : ¬ op.Counts prior := by
      rintro ⟨rfl, hprior⟩
      rw [heq] at hprior
      exact absurd hprior (by decide)
    exact .inl ⟨by simp [Loc.owes, hnot], rfl, rfl⟩
  | store op prior =>
    by_cases hcounts : op.Counts prior
    · refine .inr (.inl ⟨rfl, decide_eq_true hcounts, rfl, ?_⟩)
      simp [countP_append, Event.counts, hcounts]
    · refine .inl ⟨decide_eq_false hcounts, rfl, ?_⟩
      simp [countP_append, Event.counts, hcounts]
  | unlock op prior ok =>
    refine .inl ⟨?_, rfl, ?_⟩
    · by_cases hcounts : ok = true ∧ op.Counts prior
      · simp [Loc.owes, hcounts]
      · rw [if_neg hcounts]
        simpa [Loc.owes] using hcounts
    · simp [countP_append, Event.counts]
  | announce => exact .inr (.inr ⟨rfl, rfl, rfl, rfl⟩)

/-- The changes that count are those that are counted and those that a goroutine still owes. -/
def Balanced (g₀ : Nat) (c : System ι Nat) : Prop :=
  ∃ pending : List ι, pending.Nodup ∧ (∀ u, u ∈ pending ↔ (c.loc u).owes = true) ∧
    c.shared.connectedGen + pending.length = g₀ + c.shared.log.countP Event.counts

theorem balanced_start (value : SessionState) (epoch g₀ : Nat) :
    Balanced g₀ (start value epoch g₀ : System ι Nat) := by
  refine ⟨[], .nil, ?_, rfl⟩
  intro u
  simp [start, Loc.owes]

variable [DecidableEq ι]

theorem balanced_step {g₀ : Nat} {c c' : System ι Nat} {b : ι × Act} (h : Balanced g₀ c)
    (hs : Conf.exec act c b = some c') : Balanced g₀ c' := by
  obtain ⟨t, a⟩ := b
  obtain ⟨l', s', ha, rfl⟩ := Conf.exec_eq_some.1 hs
  obtain ⟨pending, hnodup, hmem, hsum⟩ := h
  -- the others owe what they owed
  have howed : ∀ u, (Function.update c.loc t l' u).owes = if u = t then l'.owes else (c.loc u).owes := by
    intro u
    by_cases hu : u = t
    · rw [hu, Function.update_self, if_pos rfl]
    · rw [Function.update_of_ne hu, if_neg hu]
  rcases (access_of_act ha).owes with ⟨howes, hgen, hcount⟩ | ⟨hbefore, hafter, hgen, hcount⟩ |
    ⟨hbefore, hafter, hgen, hcount⟩
  · refine ⟨pending, hnodup, fun u => ?_, ?_⟩
    · rw [howed, howes, hmem]
      by_cases hu : u = t
      · rw [if_pos hu, hu]
      · rw [if_neg hu]
    show s'.connectedGen + _ = _ + s'.log.countP Event.counts
    rw [hgen, hcount]
    exact hsum
  · have hnew : t ∉ pending := by
      rw [hmem, hbefore]
      exact Bool.false_ne_true
    refine ⟨t :: pending, nodup_cons.2 ⟨hnew, hnodup⟩, fun u => ?_, ?_⟩
    · rw [howed, hafter, mem_cons, hmem]
      by_cases hu : u = t
      · rw [if_pos hu]
        exact iff_of_true (.inl hu) rfl
      · rw [if_neg hu]
        exact ⟨fun hor => hor.resolve_left hu, .inr⟩
    show s'.connectedGen + _ = _ + s'.log.countP Event.counts
    rw [hgen, hcount, length_cons]
    omega
  · have hold : t ∈ pending := (hmem t).2 hbefore
    refine ⟨pending.erase t, hnodup.erase t, fun u => ?_, ?_⟩
    · rw [howed, hafter, hnodup.mem_erase_iff, hmem]
      by_cases hu : u = t
      · rw [if_pos hu]
        exact iff_of_false (fun hand => hand.1 hu) Bool.false_ne_true
      · rw [if_neg hu]
        exact ⟨And.right, fun hu' => ⟨hu, hu'⟩⟩
    have hpos := length_pos_of_mem hold
    show s'.connectedGen + _ = _ + s'.log.countP Event.counts
    rw [hgen, hcount, length_erase_of_mem hold]
    omega

end Generations

/-! ## Whole runs -/

section Runs

variable {ι : Type} [DecidableEq ι] {v₀ : SessionState} {e₀ g₀ : Nat} {c c' : System ι Nat}

variable {b : ι × Act}

theorem Locked.edge (h : Locked v₀ c) (hs : Conf.exec act c b = some c') :
    c'.shared.value = c.shared.value ∨ c'.shared.value ∈ allowedTransitions c.shared.value := by
  obtain ⟨t, a⟩ := b
  obtain ⟨l', s', ha, rfl⟩ := Conf.exec_eq_some.1 hs
  have hl := h.loc t
  generalize c.loc t = l at ha hl
  cases access_of_act ha with
  | store op prior hne hedge =>
    obtain ⟨-, -, hvalue⟩ := hl
    exact .inr (hvalue ▸ hedge)
  | _ => exact .inl rfl

theorem epoch_le_step (hs : Conf.exec act c b = some c') : c.shared.epoch ≤ c'.shared.epoch := by
  obtain ⟨t, a⟩ := b
  obtain ⟨l', s', ha, rfl⟩ := Conf.exec_eq_some.1 hs
  generalize c.loc t = l at ha
  cases access_of_act ha with
  | bumpEpoch | count => exact Nat.le_succ _
  | _ => exact Nat.le_refl _

theorem locked_of_run (h : Run (Conf.exec act) anyStep c c') (hc : Locked v₀ c) : Locked v₀ c' :=
  h.invariant hc fun _ _ _ hl _ hs => locked_step hl hs

omit [DecidableEq ι] in
/-- A change into Connected is complete, or its goroutine is about to count the epoch. -/
theorem Locked.risen (h : Locked v₀ c) {who op prior e}
    (hmem : .changed who op prior e ∈ c.shared.log) (hwant : op.want = .connected) :
    e < c.shared.epoch ∨ c.loc who = .stored op prior := by
  cases hmu : c.shared.mu with
  | none => exact .inl (h.shared.risen hmu who op prior e hmem hwant)
  | some u =>
    have hu := h.loc u
    cases hloc : c.loc u with
    | idle | waiting | announcing =>
      rw [hloc] at hu
      exact absurd hmu hu
    | locked =>
      rw [hloc] at hu
      exact .inl (hu.2 who op prior e hmem hwant)
    | loaded | leaving =>
      rw [hloc] at hu
      exact .inl (hu.2.1 who op prior e hmem hwant)
    | stored =>
      rw [hloc] at hu
      obtain ⟨-, log, e', hlog, -, hrisen⟩ := hu
      rw [hlog] at hmem
      rcases mem_append.1 hmem with hmem | hmem
      · exact .inl (hrisen who op prior e hmem hwant)
      simp only [mem_singleton, Event.changed.injEq] at hmem
      obtain ⟨rfl, rfl, rfl, rfl⟩ := hmem
      exact .inr hloc

/-- What holds of a configuration, of the log that led to it and of everything that follows it. -/
structure Lawful (g₀ : Nat) (c : System ι Nat) : Prop where
  absorbing : c.shared.value = .closed → ∀ c', Run (Conf.exec act) anyStep c c' → c'.shared.value = .closed
  edges : ∀ b c', Conf.exec act c b = some c' → c'.shared.value ≠ c.shared.value →
    c'.shared.value ∈ allowedTransitions c.shared.value
  left : ∀ w pre mid post a b p p', c.shared.log =
      pre ++ .returned a (.transitionToOnce w) p true ::
        (mid ++ .returned b (.transitionToOnce w) p' true :: post) →
    ∃ who op epoch, .changed who op w epoch ∈ mid
  closedOnce : ∀ pre mid post a b p p', c.shared.log ≠
    pre ++ .returned a (.transitionToOnce .closed) p true ::
      (mid ++ .returned b (.transitionToOnce .closed) p' true :: post)
  monotone : ∀ c', Run (Conf.exec act) anyStep c c' → c.shared.epoch ≤ c'.shared.epoch
  risen : ∀ who op prior e, .changed who op prior e ∈ c.shared.log → op.want = .connected →
    e < c.shared.epoch ∨ c.loc who = .stored op prior
  generations : Balanced g₀ c

/-- **Every interleaving of the calls is lawful.** -/
theorem run_lawful (h : Run (Conf.exec act) anyStep (start v₀ e₀ g₀) c) : Lawful g₀ c := by
  have hlocked : Locked v₀ c := locked_of_run h (locked_start v₀ e₀ g₀)
  have hhistory := hlocked.shared.history
  refine ⟨?_, ?_, ?_, ?_, ?_, ?_, ?_⟩
  · intro hclosed c' hrun
    have hboth : Locked v₀ c' ∧ c'.shared.value = .closed := by
      refine hrun.invariant (P := fun c => Locked v₀ c ∧ c.shared.value = .closed) ⟨hlocked, hclosed⟩ ?_
      rintro x b x' ⟨hx, hvalue⟩ - hs
      refine ⟨locked_step hx hs, ?_⟩
      rcases hx.edge hs with hsame | hedge
      · exact hsame.trans hvalue
      · rw [hvalue] at hedge
        cases hedge
    exact hboth.2
  · intro b c' hs hne
    exact (hlocked.edge hs).resolve_left hne
  · intro w pre mid post a b p p' heq
    rw [heq] at hhistory
    exact hhistory.left_between
  · intro pre mid post a b p p' heq
    rw [heq] at hhistory
    obtain ⟨who, op, epoch, hmem⟩ := hhistory.left_between
    -- no edge leads out of Closed
    have hedge : op.want ∈ allowedTransitions .closed := by
      apply hhistory.edge
      exact mem_append_right _ (mem_cons_of_mem _ (mem_append_left _ hmem))
    cases hedge
  · intro c' hrun
    refine hrun.invariant (P := fun x => c.shared.epoch ≤ x.shared.epoch) (Nat.le_refl _) ?_
    intro x b x' hle _ hs
    exact Nat.le_trans hle (epoch_le_step hs)
  · exact fun who op prior e hmem hwant => hlocked.risen hmem hwant
  · exact h.invariant (balanced_start v₀ e₀ g₀) fun _ _ _ hb _ hs => balanced_step hb hs

end Runs

/-- A connect, while another goroutine bumps the epoch and two race to close. -/
theorem run_lawful_race :
    ∃ c : System Nat Nat, (c.shared.value = .closed ∧ c.shared.epoch = 2 ∧ c.shared.connectedGen = 1) ∧
      Lawful 0 c := by
  obtain ⟨c, hrun, hc, -⟩ := Conf.exists_run act anyStep (start .connecting 0 0)
    (fun c => c.shared.value = .closed ∧ c.shared.epoch = 2 ∧ c.shared.connectedGen = 1)
    [(0, .call .enterConnected), (1, .call (.transitionToOnce .closed)), (2, .call (.transitionToOnce .closed)),
      (0, .step), (0, .step), (0, .step), (3, .bumpEpoch), (0, .step), (0, .step),
      (1, .step), (1, .step), (1, .step), (0, .step), (1, .step), (1, .step),
      (2, .step), (2, .step), (2, .step), (2, .step)] (by decide)
  exact ⟨c, hc, run_lawful hrun⟩

end GoAds.Session.Counters
