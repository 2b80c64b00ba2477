import GoAds.Discovery.Gone
import GoAds.Lib.Interleaving

/-!
# `Discovery.Filed` — every symbol is filed under its own name

Three functions put symbols into `cache.symbols`: the parser, under the names of the table; `addChildren`,
under the paths it has built; and the on-demand path of `getSymbol`, under the name the caller asked for,
while the symbol carries the name the PLC answered.  Everything that later starts from a symbol
(`dispatchSample`, `hasLiveNotification`, the removal of a config) goes by the symbol's own name.
-/

namespace GoAds.Discovery

open FirstWins Interleaving

variable {lower : Char → Char}

/-- Every entry is filed under the key of its own name. -/
def Filed (lower : Char → Char) (m : SymbolMap) : Prop :=
  ∀ k s, m.lookup k = some s → s.key lower = k

/-! ## Calls -/

inductive Op
  | loadSymbols
  | loadSymbolsSlow
  | loadSymbolList
  | loadDataTypes
  | refreshSymbols
  | reloadSymbols (strict : Bool)
  | getSymbol (name : Name)

/-- A call, with the answers of the PLC and the orders of the ranges. -/
structure Call (lower : Char → Char) where
  op : Op
  plc : Plc
  ranging : Ranging lower

/-- The cache after a call, whether it succeeds or fails. -/
def Call.run (x : Call lower) (c : Cache) : Cache :=
  match x.op with
  | .loadSymbols => (loadSymbolsFull x.ranging x.plc c).1
  | .loadSymbolsSlow => (loadSymbolsSlow x.ranging x.plc c).1
  | .loadSymbolList => (loadSymbolList x.ranging x.plc c).1
  | .loadDataTypes => (loadDataTypes x.ranging x.plc c).1
  | .refreshSymbols => (refreshSymbols x.ranging x.plc c).1
  | .reloadSymbols strict => (reloadSymbols x.ranging x.plc strict c).1
  | .getSymbol name => (getSymbol lower x.plc name c).1

def step (lower : Char → Char) (c : Cache) (x : Call lower) : Option Cache := some (x.run c)

/-- The names that a call may resolve on demand. -/
def Op.asks (c : Cache) : Op → List Name
  | .getSymbol name => [name]
  | .reloadSymbols _ => c.onDemandSymbols
  | _ => []

/-- The PLC answers with the name it was asked for, up to case. -/
def OwnNames (c : Cache) (x : Call lower) : Prop :=
  ∀ name ∈ x.op.asks c, ∀ info, x.plc.info name = some info →
    symbolKey lower info.fullName = symbolKey lower name

/-! ## The tables -/

section

variable {datatypes : DataTypes} {m m' : SymbolMap} {s : Symbol} {k : Name}

theorem filed_empty : Filed lower ∅ := by
  intro k s hs
  rw [Finmap.lookup_empty] at hs
  cases hs

section

variable (h : Filed lower m)

include h

theorem Filed.insert (hs : s.key lower = k) : Filed lower (m.insert k s) := by
  intro k' s' hs'
  by_cases hk : k' = k
  · subst hk
    rw [Finmap.lookup_insert] at hs'
    obtain rfl : s = s' := Option.some.inj hs'
    exact hs
  · rw [Finmap.lookup_insert_of_ne _ hk] at hs'
    exact h k' s' hs'

theorem Filed.addChildren (ha : AddChildren lower s m m') : Filed lower m' := by
  obtain ⟨order, -, hf⟩ := ha
  intro k x hx
  rcases hf.origin hx with hx | ⟨-, hk, -⟩
  · exact h k x hx
  · exact hk

theorem Filed.parseSymbols {us} (hp : ParseSymbols lower datatypes us m m') : Filed lower m' := by
  induction hp with
  | nil => exact h
  | cons add _ ih => exact ih ((h.insert (key_addSymbol _)).addChildren add)

theorem Filed.rebuildEach {ks} (hr : RebuildEach lower datatypes ks m m') : Filed lower m' := by
  induction hr with
  | nil => exact h
  | unknown _ _ _ ih => exact ih h
  | @expand k ks s dt m m₁ m₂ hs _ add _ ih =>
    exact ih ((h.insert (Symbol.key_build.trans (h k s hs))).addChildren add)

end

theorem filed_parse (r : Ranging lower) (us : List Upload) : Filed lower (r.parse datatypes us) :=
  filed_empty.parseSymbols (r.parse_spec datatypes us)

theorem Filed.rebuild (h : Filed lower m) (r : Ranging lower) : Filed lower (r.rebuild datatypes m) := by
  obtain ⟨order, -, -, hr⟩ := r.rebuild_spec datatypes m
  exact h.rebuildEach hr

end

/-! ## The calls -/

section

variable {r : Ranging lower} {plc : Plc} {c : Cache} {name : Name}

section

variable (h : Filed lower c.symbols)

include h

theorem filed_loadSymbols : Filed lower (loadSymbols r plc c).1.symbols := by
  unfold loadSymbols
  split
  · exact filed_parse r _
  · exact h

theorem filed_loadSymbolsFull : Filed lower (loadSymbolsFull r plc c).1.symbols := by
  have hl : Filed lower (loadSymbols r plc c).1.symbols := filed_loadSymbols h
  unfold loadSymbolsFull
  split
  · exact h
  split
  · next c₁ e hc => rwa [hc] at hl
  · next c₁ hc => rwa [hc] at hl

theorem filed_loadSymbolsSlow : Filed lower (loadSymbolsSlow r plc c).1.symbols := by
  unfold loadSymbolsSlow
  split
  · exact h
  split
  · exact filed_parse r _
  · exact h

end

theorem filed_storeList (us : List Upload) : Filed lower (c.storeList r us).symbols := by
  unfold Cache.storeList
  simp only
  split
  · exact (filed_parse r us).rebuild r
  · exact filed_parse r us

theorem filed_loadSymbolList (h : Filed lower c.symbols) :
    Filed lower (loadSymbolList r plc c).1.symbols := by
  unfold loadSymbolList
  split
  · split
    · split
      · exact filed_storeList _
      · exact h
    · exact h
  · exact h

theorem filed_loadDataTypes (h : Filed lower c.symbols) :
    Filed lower (loadDataTypes r plc c).1.symbols := by
  unfold loadDataTypes
  split
  · split
    · split
      · simp only [Cache.storeDataTypes]
        split
        · exact h.rebuild r
        · exact h
      · exact h
    · exact h
  · exact h

theorem filed_refreshSymbols (h : Filed lower c.symbols) :
    Filed lower (refreshSymbols r plc c).1.symbols := by
  unfold refreshSymbols
  split
  · split
    · exact h
    split
    · exact filed_loadSymbols h
    · exact h
  · exact h

theorem filed_getSymbol (h : Filed lower c.symbols)
    (hn : ∀ info, plc.info name = some info → symbolKey lower info.fullName = symbolKey lower name) :
    Filed lower (getSymbol lower plc name c).1.symbols := by
  unfold getSymbol
  split
  · next s hs =>
    split
    · exact h
    split
    · split
      · exact h.insert (h _ s hs)
      · exact h
    · exact h
  split
  · split
    · next info hi =>
      split
      · exact h.insert (hn info hi)
      · exact h
    · exact h
  · exact h

variable {strict : Bool}

theorem filed_resolveEach {names} (h : Filed lower c.symbols)
    (hn : ∀ name ∈ names, ∀ info, plc.info name = some info →
      symbolKey lower info.fullName = symbolKey lower name) :
    Filed lower (resolveEach lower plc strict names c).1.symbols := by
  induction names generalizing c with
  | nil => exact h
  | cons name names ih =>
    have hrest := fun n hm => hn n (List.mem_cons_of_mem _ hm)
    have hg := filed_getSymbol h (hn name (List.mem_cons_self ..))
    unfold resolveEach
    split
    · next c₁ s hc =>
      rw [hc] at hg
      exact ih hg hrest
    next c₁ e hc =>
    rw [hc] at hg
    split
    · exact hg
    · exact ih hg hrest

theorem filed_reloadSymbols (h : Filed lower c.symbols)
    (hn : ∀ name ∈ c.onDemandSymbols, ∀ info, plc.info name = some info →
      symbolKey lower info.fullName = symbolKey lower name) :
    Filed lower (reloadSymbols r plc strict c).1.symbols := by
  unfold reloadSymbols
  split
  · exact filed_loadSymbols h
  split
  · have hl : Filed lower (if c.symbolListLoaded then loadSymbolList r plc c else (c, .ok ())).1.symbols := by
      split
      · exact filed_loadSymbolList h
      · exact h
    split
    · next c₁ e hc => rwa [hc] at hl
    next c₁ hc =>
    rw [hc] at hl
    split
    · exact filed_loadDataTypes hl
    · exact hl
  split
  · exact filed_resolveEach filed_empty hn
  · exact h

end

variable {c : Cache} {C : Casing Name Name} {fullName name : Name} {m : Notification.Manager Name Name}

/-- **One call keeps the entries filed**, when the PLC answers with the names it is asked for. -/
theorem Filed.run {x : Call lower} (h : Filed lower c.symbols) (hok : OwnNames c x) :
    Filed lower (x.run c).symbols := by
  obtain ⟨op, plc, r⟩ := x
  cases op with
  | loadSymbols => exact filed_loadSymbolsFull h
  | loadSymbolsSlow => exact filed_loadSymbolsSlow h
  | loadSymbolList => exact filed_loadSymbolList h
  | loadDataTypes => exact filed_loadDataTypes h
  | refreshSymbols => exact filed_refreshSymbols h
  | reloadSymbols => exact filed_reloadSymbols h hok
  | getSymbol name => exact filed_getSymbol h (hok name (List.mem_singleton.2 rfl))

theorem filed_of_run (h : Run (step lower) OwnNames .empty c) : Filed lower c.symbols := by
  refine h.invariant (P := fun c => Filed lower c.symbols) filed_empty fun c x c' hc hok hs => ?_
  obtain rfl : x.run c = c' := Option.some.inj hs
  exact hc.run hok

/-! ## What goes by the name of a symbol -/

/-- The entry that `dispatchSample` parses a sample with, by the name of the symbol its handle was
    committed for. -/
def sampleTarget (lower : Char → Char) (c : Cache) (fullName : Name) : Option Symbol :=
  c.symbols.lookup (symbolKey lower fullName)

theorem hasLiveNotification_of_key {handle ch}
    (hn : C.symbolKey fullName = C.symbolKey name)
    (hm : m.activeNotifications.lookup handle = some ⟨fullName, ch⟩) :
    m.hasLiveNotification C name = true := by
  unfold Notification.Manager.hasLiveNotification
  have hmem := AList.mem_lookup_iff.1 (show _ ∈ m.activeNotifications.lookup handle from hm)
  exact List.any_eq_true.2 ⟨_, hmem, decide_eq_true hn⟩

theorem configsByKey_remove (hn : C.symbolKey fullName = C.symbolKey name) :
    C.symbolKey name ∉ (m.removeNotificationConfig C fullName).configsByKey := by
  unfold Notification.Manager.removeNotificationConfig
  rw [hn]
  split
  · exact Finset.notMem_erase _ _
  · assumption

/-- **Every symbol is filed under its own name**, in every run of calls during which the PLC answers with
    the names it is asked for.  So what is found for a name under its key goes by the same key: a sample of
    its notifications is parsed with the entry of the name, in this cache and in every later one; its
    notification counts as one of the name; and a delete by the symbol's name removes the config of the
    name. -/
theorem filed_under_own_name {c : Cache} (h : Run (step lower) OwnNames .empty c) :
    (∀ k s, c.symbols.lookup k = some s → k = symbolKey lower s.info.fullName) ∧
      ∀ name s, c.symbols.lookup (symbolKey lower name) = some s →
        sampleTarget lower c s.info.fullName = some s ∧
        (∀ later : Cache, sampleTarget lower later s.info.fullName =
          later.symbols.lookup (symbolKey lower name)) ∧
        ∀ (equalFold : Name → Name → Bool) (m : Notification.Manager Name Name),
          (∀ handle ch, m.activeNotifications.lookup handle = some ⟨s.info.fullName, ch⟩ →
            m.hasLiveNotification (casing lower equalFold) name = true) ∧
          symbolKey lower name ∉
            (m.removeNotificationConfig (casing lower equalFold) s.info.fullName).configsByKey := by
  have hf := filed_of_run h
  refine ⟨fun k s hs => (hf k s hs).symm, fun name s hs => ?_⟩
  have hn : symbolKey lower s.info.fullName = symbolKey lower name := hf _ s hs
  refine ⟨?_, fun later => ?_, fun equalFold m => ⟨fun handle ch hm => ?_, ?_⟩⟩
  · rw [sampleTarget, hn]
    exact hs
  · rw [sampleTarget, hn]
  · exact hasLiveNotification_of_key hn hm
  · exact configsByKey_remove (C := casing lower equalFold) hn

/-! ## A PLC that answers with the name it is asked for, and one that does not -/

namespace Example

/-- A PLC that answers every lookup with one name. -/
def answering (fullName : Name) : Plc :=
  { bare with info := fun name => (bare.info name).map fun i => { i with fullName := fullName } }

/-- `getSymbol` of `a`. -/
def resolveA (r : Ranging lower) (fullName : Name) : Call lower :=
  ⟨.getSymbol ['a'], answering fullName, r⟩

/-- What it files. -/
def resolvedA (fullName : Name) : Symbol :=
  .mk { fullName := fullName, dataType := ['I', 'N', 'T'], length := 2, baseType := 2
        group := 0x4020, offset := 0, handle := 7 } []

end Example

theorem lookup_resolveA (r : Ranging lower) (fullName : Name) :
    ((Example.resolveA r fullName).run .empty).symbols.lookup (symbolKey lower ['a']) =
      some (Example.resolvedA fullName) :=
  Finmap.lookup_insert _

/-- The PLC answers in its own case, and `A` is found under `a`. -/
theorem filed_under_own_name_resolved : ∃ c, Run (step Char.toLower) OwnNames .empty c ∧
      ∃ s, c.symbols.lookup (symbolKey Char.toLower ['a']) = some s ∧ s.info.fullName = ['A'] ∧
        sampleTarget Char.toLower c s.info.fullName = some s := by
  obtain ⟨r⟩ := nonempty_ranging Char.toLower
  have hok : OwnNames .empty (Example.resolveA r ['A']) := by
    intro name hname info hinfo
    obtain rfl := List.mem_singleton.1 hname
    cases hinfo
    decide
  have hr : Run (step Char.toLower) OwnNames .empty ((Example.resolveA r ['A']).run .empty) :=
    .snoc _ .refl hok rfl
  have hs := lookup_resolveA r ['A']
  exact ⟨_, hr, _, hs, rfl, ((filed_under_own_name hr).2 _ _ hs).1⟩

/-- The PLC answers a lookup of `a` with the entry of `b`: the symbol is filed under `a`, and nothing that
    goes by its name finds it. -/
theorem filed_under_other_name : ¬∀ (lower : Char → Char) (c : Cache), Run (step lower) anyStep .empty c →
      ∀ k s, c.symbols.lookup k = some s → k = symbolKey lower s.info.fullName := by
  intro hall
  obtain ⟨r⟩ := nonempty_ranging id
  have hr : Run (step id) anyStep .empty ((Example.resolveA r ['b']).run .empty) :=
    .snoc _ .refl trivial rfl
  exact absurd (hall id _ hr _ _ (lookup_resolveA r ['b'])) (by decide)

end GoAds.Discovery
