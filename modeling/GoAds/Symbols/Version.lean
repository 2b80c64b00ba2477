import GoAds.Lib.Interleaving

/-!
# `Symbols.Version` — the recorded symbol version and the table it should describe

`cache.symbolVersion` is what RefreshSymbols compares the PLC's version with.  Every load writes it before
it downloads anything, and `consumeHeartbeat` writes it without a download.  So it can name a version
whose table was never loaded, and RefreshSymbols then finds nothing to do.

A step is one request to the PLC or one critical section of `cache.lock`.  A table counts as downloaded
when its symbols arrive; the retry of a failed chunk, the release of old handles and the expansion of
children change nothing here.
-/

namespace GoAds.Symbols.Version

open Interleaving
open Function (update update_of_ne update_self)

/-- What is done about an online change. -/
inductive Strategy
  | ignore
  | close
  | autoReload

/-- Who loads: the three calls of the API, RefreshSymbols, and an auto-reload. -/
inductive Load
  | loadSymbols
  | loadSymbolsSlow
  | loadSymbolList
  | refreshSymbols
  | autoReload
  deriving DecidableEq

structure Shared where
  plc : UInt8
  symbolVersion : UInt8
  /-- The version at which the table in `cache.symbols` was downloaded, as history. -/
  table : Option UInt8
  reloadInProgress : Bool
  /-- Auto-reloads that have been started and do not run yet. -/
  spawned : Nat
  deriving DecidableEq

inductive Pc
  | idle
  -- a load
  | version (l : Load)
  | record (l : Load) (v : UInt8)
  | uploadInfo (l : Load)
  | datatypes (l : Load)
  | symbols (l : Load)
  | swap (l : Load) (v : UInt8)
  /-- An auto-reload after its load: it subscribes again. -/
  | finish
  -- RefreshSymbols
  | check
  | compare (v : UInt8)
  deriving DecidableEq

inductive Act
  | next
  | answer
  /-- The request fails, or its answer cannot be parsed. -/
  | fail
  | loadSymbols
  | loadSymbolsSlow
  | loadSymbolList
  | refreshSymbols
  /-- A spawned auto-reload begins, or finds that the cap on reloads is exhausted. -/
  | autoReload (capped : Bool)
  /-- The PLC is given another program. -/
  | online (v : UInt8)
  /-- A heartbeat sample with this version arrives. -/
  | beat (v : UInt8)
  deriving DecidableEq

def Load.done : Load → Pc
  | .autoReload => .finish
  | _ => .idle

/-- `handleStaleDetection`, as far as it starts a load: to mark handles stale and to close the session
    changes neither the version nor the table. -/
def handleStaleDetection (strategy : Strategy) (c : Shared) : Shared :=
  match strategy with
  | .autoReload =>
    if c.reloadInProgress then c else { c with reloadInProgress := true, spawned := c.spawned + 1 }
  | _ => c

/-- `consumeHeartbeat`: a version that differs from a known one is recorded, and acted upon. -/
def consumeHeartbeat (strategy : Strategy) (c : Shared) (v : UInt8) : Shared :=
  if c.symbolVersion ≠ 0 ∧ v ≠ c.symbolVersion then
    handleStaleDetection strategy { c with symbolVersion := v }
  else c

/-- A load: its version, its upload information, its tables, and the swap. -/
def loadStep (c : Shared) : Pc → Act → Option (Pc × Shared)
  | .version l, .answer => some (.record l c.plc, c)
  -- the load goes on without a version
  | .version l, .fail => some (.uploadInfo l, c)
  | .record l v, .next => some (.uploadInfo l, { c with symbolVersion := v })
  | .uploadInfo l, .answer =>
    some (if l = .loadSymbolList then .symbols l else .datatypes l, c)
  | .uploadInfo l, .fail => some (l.done, c)
  | .datatypes l, .answer => some (.symbols l, c)
  | .datatypes l, .fail => some (l.done, c)
  | .symbols l, .answer => some (.swap l c.plc, c)
  | .symbols l, .fail => some (l.done, c)
  | .swap l v, .next => some (l.done, { c with table := some v })
  | .finish, .next => some (.idle, { c with reloadInProgress := false })
  | _, _ => none

/-- RefreshSymbols: CheckSymbolVersion, and the load if the version has changed. -/
def refreshStep (c : Shared) : Pc → Act → Option (Pc × Shared)
  | .check, .answer => some (.compare c.plc, c)
  | .check, .fail => some (.idle, c)
  | .compare v, .next =>
    if v ≠ c.symbolVersion then some (.version .refreshSymbols, c) else some (.idle, c)
  | _, _ => none

variable (strategy : Strategy)

def idleStep (c : Shared) : Act → Option (Pc × Shared)
  | .loadSymbols => some (.version .loadSymbols, c)
  | .loadSymbolsSlow => some (.version .loadSymbolsSlow, c)
  | .loadSymbolList => some (.version .loadSymbolList, c)
  | .refreshSymbols => some (.check, c)
  | .autoReload capped =>
    if c.spawned = 0 then none
    else if capped then
      some (.idle, { c with spawned := c.spawned - 1, reloadInProgress := false })
    else some (.version .autoReload, { c with spawned := c.spawned - 1 })
  | .online v => some (.idle, { c with plc := v })
  | .beat v => some (.idle, consumeHeartbeat strategy c v)
  | _ => none

def plan (_ : Nat) (pc : Pc) (c : Shared) (a : Act) : Option (Pc × Shared) :=
  match pc with
  | .idle => idleStep strategy c a
  | .check | .compare _ => refreshStep c pc a
  | _ => loadStep c pc a

abbrev State := Conf Nat Shared Pc

def step : State → Nat × Act → Option State := Conf.exec (plan strategy)

/-- A session that has connected and loaded nothing. -/
def init (v : UInt8) : State where
  shared := { plc := v, symbolVersion := v, table := none, reloadInProgress := false, spawned := 0 }
  loc _ := .idle

/-! ## The condition -/

/-- A load between the answer to its GetSymbolVersion and its swap. -/
def Pc.loading : Pc → Bool
  | .record _ _ | .uploadInfo _ | .datatypes _ | .symbols _ | .swap _ _ => true
  | _ => false

/-- **The version is written only together with the table.**

    * The PLC's version does not change during a load.
    * A heartbeat sample brings another version than the recorded one only while nothing is loaded or
      being loaded (or no version is recorded).
    * A load that cannot read the version goes on only when the recorded version is the PLC's.
    * A load that has written the version fails only when nothing is loaded, or the loaded table is of
      that version.
    * RefreshSymbols compares versions only while no load is between its version and its swap. -/
def Paired (s : State) (x : Nat × Act) : Prop :=
  match x.2 with
  | .online _ => ∀ u, (s.loc u).loading = false
  | .beat v => s.shared.symbolVersion = 0 ∨ v = s.shared.symbolVersion ∨
      s.shared.table = none ∧ ∀ u, (s.loc u).loading = false
  | .fail =>
    match s.loc x.1 with
    | .version _ => s.shared.symbolVersion = s.shared.plc
    | .uploadInfo _ | .datatypes _ | .symbols _ =>
      s.shared.table = none ∨ s.shared.table = some s.shared.symbolVersion
    | _ => True
  | .next =>
    match s.loc x.1 with
    | .compare _ => ∀ u, (s.loc u).loading = false
    | _ => True
  | _ => True

/-! ## The steps, read backwards -/

/-- The three versions are left as they are. -/
structure SameVersions (c c' : Shared) : Prop where
  plc : c'.plc = c.plc
  symbolVersion : c'.symbolVersion = c.symbolVersion
  table : c'.table = c.table

theorem SameVersions.refl (c : Shared) : SameVersions c c := ⟨rfl, rfl, rfl⟩

/-- What a step is to the versions. -/
inductive PlanStep (c : Shared) : Pc → Act → Pc → Shared → Prop
  | outside (pc : Pc) (a : Act) (pc' : Pc) (c' : Shared) (hpc : pc.loading = false)
      (hpc' : pc'.loading = false) (hc : SameVersions c c') : PlanStep c pc a pc' c'
  | version (l : Load) : PlanStep c (.version l) .answer (.record l c.plc) c
  | blind (l : Load) : PlanStep c (.version l) .fail (.uploadInfo l) c
  | record (l : Load) (v : UInt8) :
      PlanStep c (.record l v) .next (.uploadInfo l) { c with symbolVersion := v }
  | uploadInfo (l : Load) (pc' : Pc) (h : pc' = .datatypes l ∨ pc' = .symbols l) :
      PlanStep c (.uploadInfo l) .answer pc' c
  | datatypes (l : Load) : PlanStep c (.datatypes l) .answer (.symbols l) c
  | symbols (l : Load) : PlanStep c (.symbols l) .answer (.swap l c.plc) c
  | failed (l : Load) (pc : Pc) (h : pc = .uploadInfo l ∨ pc = .datatypes l ∨ pc = .symbols l) :
      PlanStep c pc .fail l.done c
  | swap (l : Load) (v : UInt8) : PlanStep c (.swap l v) .next l.done { c with table := some v }
  | online (v : UInt8) : PlanStep c .idle (.online v) .idle { c with plc := v }
  | beat (v : UInt8) (c' : Shared) (h0 : c.symbolVersion ≠ 0) (hv : v ≠ c.symbolVersion)
      (hc : SameVersions { c with symbolVersion := v } c') : PlanStep c .idle (.beat v) .idle c'

theorem Load.loading_done (l : Load) : l.done.loading = false := by
  cases l <;> rfl

variable {strategy : Strategy} {c c' : Shared} {pc pc' : Pc} {a : Act}

theorem sameVersions_stale (c : Shared) : SameVersions c (handleStaleDetection strategy c) := by
  unfold handleStaleDetection
  split
  · split <;> exact ⟨rfl, rfl, rfl⟩
  · exact .refl c

theorem loadStep_cases (h : loadStep c pc a = some (pc', c')) : PlanStep c pc a pc' c' := by
  unfold loadStep at h
  split at h <;> cases h
  · exact .version _
  · exact .blind _
  · exact .record _ _
  · refine .uploadInfo _ _ ?_
    split
    · exact .inr rfl
    · exact .inl rfl
  · exact .failed _ _ (.inl rfl)
  · exact .datatypes _
  · exact .failed _ _ (.inr (.inl rfl))
  · exact .symbols _
  · exact .failed _ _ (.inr (.inr rfl))
  · exact .swap _ _
  · exact .outside _ _ _ _ rfl rfl ⟨rfl, rfl, rfl⟩

theorem refreshStep_cases (h : refreshStep c pc a = some (pc', c')) : PlanStep c pc a pc' c' := by
  unfold refreshStep at h
  split at h
  case' h_3 => split at h
  all_goals cases h
  all_goals exact .outside _ _ _ _ rfl rfl (.refl c)

theorem idleStep_cases (h : idleStep strategy c a = some (pc', c')) : PlanStep c .idle a pc' c' := by
  unfold idleStep at h
  split at h
  case h_5 =>
    split at h
    · cases h
    · split at h <;> cases h <;> exact .outside _ _ _ _ rfl rfl ⟨rfl, rfl, rfl⟩
  all_goals cases h
  case h_6 => exact .online _
  case h_7 =>
    unfold consumeHeartbeat
    split
    · next hb => exact .beat _ _ hb.1 hb.2 (sameVersions_stale _)
    · exact .outside _ _ _ _ rfl rfl (.refl c)
  all_goals exact .outside _ _ _ _ rfl rfl (.refl c)

theorem step_cases {s s' t} (h : step strategy s (t, a) = some s') :
    ∃ pc' c', PlanStep s.shared (s.loc t) a pc' c' ∧ s' = ⟨c', update s.loc t pc'⟩ := by
  obtain ⟨pc', c', ha, rfl⟩ := Conf.exec_eq_some.1 h
  refine ⟨pc', c', ?_, rfl⟩
  unfold plan at ha
  split at ha
  · next hpc =>
    rw [hpc]
    exact idleStep_cases ha
  · exact refreshStep_cases ha
  · exact refreshStep_cases ha
  · exact loadStep_cases ha

/-! ## The invariant -/

/-- The version that the PLC has told a load: for its record, or with its table. -/
def Pc.seen : Pc → Option UInt8
  | .record _ v | .swap _ v => some v
  | _ => none

/-- A load that has written its version, or goes on without. -/
def Pc.recorded : Pc → Bool
  | .uploadInfo _ | .datatypes _ | .symbols _ | .swap _ _ => true
  | _ => false

theorem Pc.loading_of_seen {v} (h : pc.seen = some v) : pc.loading = true := by
  cases pc with
  | record | swap => rfl
  | _ => cases h

theorem Pc.loading_of_recorded (h : pc.recorded = true) : pc.loading = true := by
  cases pc with
  | uploadInfo | datatypes | symbols | swap => rfl
  | _ => cases h

/-- **The invariant.**  A load in progress has the PLC's version, and outside of loads the recorded
    version is the table's. -/
structure VersionInv (s : State) : Prop where
  seen : ∀ u v, (s.loc u).seen = some v → v = s.shared.plc
  recorded : ∀ u, (s.loc u).recorded = true → s.shared.symbolVersion = s.shared.plc
  table : ∀ v, s.shared.table = some v →
    s.shared.symbolVersion = v ∨ ∃ u, (s.loc u).loading = true

theorem versionInv_init (v : UInt8) : VersionInv (init v) :=
  ⟨fun _ _ h => (nomatch h), fun _ h => (nomatch h), fun _ h => nomatch h⟩

theorem PlanStep.seen (hs : PlanStep c pc a pc' c') {v} (h : pc'.seen = some v) : v = c'.plc := by
  cases hs with
  | outside _ _ _ _ _ hpc' =>
    rw [Pc.loading_of_seen h] at hpc'
    cases hpc'
  | version | symbols => exact (Option.some.inj h).symm
  | uploadInfo l _ hl => rcases hl with rfl | rfl <;> cases h
  | failed l _ _ | swap l _ =>
    have hd := Pc.loading_of_seen h
    rw [l.loading_done] at hd
    cases hd
  | _ => cases h

section Step

variable {s : State} {t : Nat}

section

variable (hs : PlanStep s.shared (s.loc t) a pc' c') (hok : Paired s (t, a))

include hs hok

/-- Somebody loads, so the PLC's version stays. -/
theorem PlanStep.plc_of_loading {u} (hu : (s.loc u).loading = true) : c'.plc = s.shared.plc := by
  generalize s.loc t = pc at hs
  cases hs with
  | outside _ _ _ _ _ _ hc | beat v _ _ _ hc => exact hc.plc
  | online => exact absurd hu (by rw [hok u]; exact Bool.false_ne_true)
  | _ => rfl

/-- Somebody loads, so the recorded version stays, or becomes the PLC's. -/
theorem PlanStep.symbolVersion_of_loading (hseen : ∀ v, (s.loc t).seen = some v → v = s.shared.plc) {u}
    (hu : (s.loc u).loading = true) :
    c'.symbolVersion = s.shared.symbolVersion ∨ c'.symbolVersion = s.shared.plc := by
  generalize s.loc t = pc at hs hseen
  cases hs with
  | outside _ _ _ _ _ _ hc => exact .inl hc.symbolVersion
  | record l v => exact .inr (hseen v rfl)
  | beat v _ h0 hv =>
    rcases hok with h | h | ⟨-, h⟩
    · exact absurd h h0
    · exact absurd h hv
    · exact absurd hu (by rw [h u]; exact Bool.false_ne_true)
  | _ => exact .inl rfl

end

section

variable (hi : VersionInv s) (hs : PlanStep s.shared (s.loc t) a pc' c') (hok : Paired s (t, a))

include hi hs hok

theorem VersionInv.recorded_self (h : pc'.recorded = true) : c'.symbolVersion = c'.plc := by
  have hseen := hi.seen t
  have hrec := hi.recorded t
  generalize hpc : s.loc t = pc at hs hseen hrec
  cases hs with
  | outside _ _ _ _ _ hpc' =>
    rw [Pc.loading_of_recorded h] at hpc'
    cases hpc'
  | blind =>
    simp only [Paired, hpc] at hok
    exact hok
  | record l v => exact hseen v rfl
  | uploadInfo | datatypes | symbols => exact hrec rfl
  | failed l _ _ | swap l _ =>
    have hd := Pc.loading_of_recorded h
    rw [l.loading_done] at hd
    cases hd
  | _ => cases h

/-- The pairing of the recorded version with the table. -/
theorem VersionInv.table_step {v} (hv : c'.table = some v) :
    c'.symbolVersion = v ∨ ∃ u, (update s.loc t pc' u).loading = true := by
  have hseen := hi.seen t
  have hrec := hi.recorded t
  have htable := hi.table
  have hself : pc'.loading = true → ∃ u, (update s.loc t pc' u).loading = true :=
    fun h => ⟨t, by rw [update_self]; exact h⟩
  generalize hpc : s.loc t = pc at hs hseen hrec
  cases hs with
  | outside _ _ _ _ hout _ hc =>
    rcases htable v (hc.table ▸ hv) with h | ⟨u, hu⟩
    · exact .inl (hc.symbolVersion.trans h)
    right
    have hne : u ≠ t := by
      rintro rfl
      rw [hpc, hout] at hu
      cases hu
    exact ⟨u, by rw [update_of_ne hne]; exact hu⟩
  | failed l _ hl =>
    -- the guard: what this load has recorded is what is loaded
    have hg : s.shared.table = none ∨ s.shared.table = some s.shared.symbolVersion := by
      rcases hl with rfl | rfl | rfl <;> simpa only [Paired, hpc] using hok
    rcases hg with h | h
    · exact nomatch h.symm.trans hv
    · exact .inl (Option.some.inj (h.symm.trans hv))
  | swap l w =>
    left
    obtain rfl : w = v := Option.some.inj hv
    exact (hrec rfl).trans (hseen w rfl).symm
  | online =>
    rcases htable v hv with h | ⟨u, hu⟩
    · exact .inl h
    · exact absurd hu (by rw [hok u]; exact Bool.false_ne_true)
  | beat w _ h0 hw hc =>
    rcases hok with h | h | ⟨h, -⟩
    · exact absurd h h0
    · exact absurd h hw
    · have hv : s.shared.table = some v := hc.table.symm.trans hv
      exact nomatch h.symm.trans hv
  | uploadInfo l _ hl => exact .inr (hself (by rcases hl with rfl | rfl <;> rfl))
  | _ => exact .inr (hself rfl)

end

theorem versionInv_step {s' x} (hi : VersionInv s) (hok : Paired s x)
    (hs : step strategy s x = some s') : VersionInv s' := by
  obtain ⟨pc', c', hp, rfl⟩ := step_cases hs
  refine ⟨fun u v hu => ?_, fun u hu => ?_, fun v hv => hi.table_step hp hok hv⟩
  · by_cases hx : u = x.1
    · subst hx
      rw [Conf.loc_self] at hu
      exact hp.seen hu
    · rw [Conf.loc_of_ne hx] at hu
      exact (hi.seen u v hu).trans (hp.plc_of_loading hok (Pc.loading_of_seen hu)).symm
  by_cases hx : u = x.1
  · subst hx
    rw [Conf.loc_self] at hu
    exact hi.recorded_self hp hok hu
  rw [Conf.loc_of_ne hx] at hu
  have hl := Pc.loading_of_recorded hu
  rw [hp.plc_of_loading hok hl]
  rcases hp.symbolVersion_of_loading hok (hi.seen x.1) hl with h | h
  · exact h.trans (hi.recorded u hu)
  · exact h

end Step

theorem versionInv {v s} (h : Run (step strategy) Paired (init v) s) : VersionInv s :=
  h.invariant (versionInv_init v) fun _ _ _ hi hok hs => versionInv_step hi hok hs

/-- **RefreshSymbols reloads when the PLC reports another version than the table's**, in every run that
    writes the version together with the table. -/
theorem refresh_reloads {v₀ : UInt8} {s : State} (h : Run (step strategy) Paired (init v₀) s) {t : Nat}
    {v v' : UInt8} (ht : s.loc t = .compare v') (hok : Paired s (t, .next))
    (hv : s.shared.table = some v) (hne : v ≠ v') : step strategy s (t, .next) =
      some ⟨s.shared, update s.loc t (.version .refreshSymbols)⟩ := by
  have hquiet : ∀ u, (s.loc u).loading = false := by simpa only [Paired, ht] using hok
  have hrec : s.shared.symbolVersion = v := by
    rcases (versionInv h).table v hv with h | ⟨u, hu⟩
    · exact h
    · exact absurd hu (by rw [hquiet u]; exact Bool.false_ne_true)
  have hchanged : v' ≠ s.shared.symbolVersion := fun he => hne (hrec.symm.trans he.symm)
  simp [step, Conf.exec, plan, ht, refreshStep, hchanged]

/-! ## A reload, and two changes that RefreshSymbols does not see -/

namespace Example

/-- LoadSymbolList, up to its end. -/
def loadList : List (Nat × Act) :=
  [(0, .loadSymbolList), (0, .answer), (0, .next), (0, .answer), (0, .answer), (0, .next)]

/-- RefreshSymbols, up to the comparison. -/
def refresh : List (Nat × Act) := [(0, .refreshSymbols), (0, .answer)]

end Example

def Act.isBeat : Act → Bool
  | .beat _ => true
  | _ => false

/-- A step to which nothing is forbidden. -/
def Free (s : State) (x : Nat × Act) : Prop :=
  match x.2 with
  | .online _ | .beat _ | .fail => False
  | .next => ∀ v, s.loc x.1 ≠ .compare v
  | _ => True

theorem Free.paired {s x} (h : Free s x) : Paired s x := by
  obtain ⟨t, a⟩ := x
  cases a with
  | online | beat | fail => exact h.elim
  | next =>
    simp only [Paired]
    split
    · next hpc => exact absurd hpc (h _)
    · trivial
  | _ => trivial

instance (s : State) : (x : Nat × Act) → Decidable (Free s x)
  | (_, .online _) | (_, .beat _) | (_, .fail) => .isFalse id
  | (t, .next) =>
    match hpc : s.loc t with
    | .compare v => .isFalse fun h => h v hpc
    | .idle | .version _ | .record _ _ | .uploadInfo _ | .datatypes _ | .symbols _ | .swap _ _
    | .finish | .check => .isTrue fun _ h => nomatch hpc.symm.trans h
  | (_, .answer) | (_, .loadSymbols) | (_, .loadSymbolsSlow) | (_, .loadSymbolList)
  | (_, .refreshSymbols) | (_, .autoReload _) => .isTrue trivial

/-- A list is loaded, the PLC changes, and RefreshSymbols begins to load. -/
theorem refresh_reloads_changed :
    ∃ s, Run (step .ignore) Paired (init 1) s ∧ s.loc 0 = .compare 2 ∧ s.shared.table = some 1 ∧
      step .ignore s (0, .next) =
        some ⟨s.shared, update s.loc 0 (.version .refreshSymbols)⟩ := by
  obtain ⟨s₁, hrun₁, ⟨hl, hsh⟩, hrest⟩ := Conf.exists_run (plan .ignore) Free (init 1)
    (fun s => s.loc 0 = .idle ∧ s.shared = ⟨1, 1, some 1, false, 0⟩) Example.loadList
    (by decide +kernel)
  have hidle : ∀ u, s₁.loc u = .idle := by
    intro u
    by_cases hu : u = 0
    · rw [hu]
      exact hl
    · exact hrest u (by simpa [Example.loadList] using fun h => hu h.symm)
  have hquiet : ∀ u, (s₁.loc u).loading = false := fun u => by rw [hidle u]; rfl
  -- the three steps that follow: the change, the call, the answer
  let s₂ : State := ⟨{ s₁.shared with plc := 2 }, update s₁.loc 0 .idle⟩
  let s₃ : State := ⟨s₂.shared, update s₂.loc 0 .check⟩
  let s₄ : State := ⟨s₃.shared, update s₃.loc 0 (.compare 2)⟩
  have h₂ : Run (step .ignore) Paired (init 1) s₂ :=
    .snoc (a := (0, .online 2)) (hrun₁.weaken fun _ _ h => h.paired) hquiet
      (by simp [step, Conf.exec, plan, hl, idleStep, s₂])
  have h₃ : Run (step .ignore) Paired (init 1) s₃ :=
    .snoc (a := (0, .refreshSymbols)) h₂ trivial (by simp [step, Conf.exec, plan, idleStep, s₂, s₃])
  have h₄ : Run (step .ignore) Paired (init 1) s₄ :=
    .snoc (a := (0, .answer)) h₃ trivial
      (by simp [step, Conf.exec, plan, refreshStep, s₂, s₃, s₄])
  have ht : s₄.loc 0 = .compare 2 := by simp [s₄]
  have hv : s₄.shared.table = some 1 := by simp [s₄, s₃, s₂, hsh]
  have hok : Paired s₄ (0, .next) := by
    simp only [Paired, ht]
    intro u
    by_cases hu : u = 0
    · rw [hu, ht]
      rfl
    · simp [s₄, s₃, s₂, hu, hquiet u]
  exact ⟨s₄, h₄, ht, hv, refresh_reloads h₄ ht hok hv (by decide)⟩

/-- RefreshSymbols returns without a reload: after a heartbeat sample has brought the new version, though
    no request fails; and after a load has failed that had written it, though no sample arrives. -/
theorem refresh_misses : (¬∀ s, Run (step .ignore) (fun _ x => x.2 ≠ .fail) (init 1) s →
      ∀ t v v', s.loc t = .compare v' → s.shared.table = some v → v ≠ v' →
        step .ignore s (t, .next) =
          some ⟨s.shared, update s.loc t (.version .refreshSymbols)⟩) ∧
      ¬∀ s, Run (step .ignore) (fun _ x => x.2.isBeat = false) (init 1) s →
        ∀ t v v', s.loc t = .compare v' → s.shared.table = some v → v ≠ v' →
          step .ignore s (t, .next) =
            some ⟨s.shared, update s.loc t (.version .refreshSymbols)⟩ := by
  -- the version is recorded, so the comparison ends the call
  have hmiss : ∀ s : State, s.loc 0 = .compare 2 → s.shared.symbolVersion = 2 → step .ignore s (0, .next) ≠
        some ⟨s.shared, update s.loc 0 (.version .refreshSymbols)⟩ := by
    intro s hl hv he
    simp only [step, Conf.exec, plan, hl, refreshStep, hv] at he
    have hloc := congrFun (congrArg Conf.loc (Option.some.inj he)) 0
    simp at hloc
  constructor
  · intro hall
    obtain ⟨s, hrun, hl, hsh⟩ := exists_run (step .ignore) (fun _ x => x.2 ≠ .fail) (init 1)
      (fun s => s.loc 0 = .compare 2 ∧ s.shared = ⟨2, 2, some 1, false, 0⟩)
      (Example.loadList ++ [(1, .online 2), (1, .beat 2)] ++ Example.refresh) (by decide +kernel)
    exact hmiss s hl (by rw [hsh]) (hall s hrun 0 1 2 hl (by rw [hsh]) (by decide))
  intro hall
  obtain ⟨s, hrun, hl, hsh⟩ := exists_run (step .ignore) (fun _ x => x.2.isBeat = false) (init 1)
    (fun s => s.loc 0 = .compare 2 ∧ s.shared = ⟨2, 2, some 1, false, 0⟩)
    (Example.loadList ++ [(1, .online 2), (1, .loadSymbols), (1, .answer), (1, .next), (1, .fail)] ++
      Example.refresh) (by decide +kernel)
  exact hmiss s hl (by rw [hsh]) (hall s hrun 0 1 2 hl (by rw [hsh]) (by decide))

end GoAds.Symbols.Version
