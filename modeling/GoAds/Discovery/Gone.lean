import GoAds.Discovery.Described
import GoAds.Discovery.Loaders
import GoAds.Notification.Resubscribe

/-!
# `Discovery.Gone` — which subscriptions a reload gives up

After a reload `filterValidPending` looks each declared subscription up in `cache.symbols` and in
`onDemandSymbols`, and drops what is in neither as gone from the PLC.  It does not ask the PLC.  What the
two sets hold by then is the work of the reload: a full load on an auto-reload, which empties
`onDemandSymbols`; on a reconnect the loads of the discovery mode, of which `LoadSymbolList` empties it too.
-/

namespace GoAds.Discovery

open FirstWins Finmap

/-! ## What the tables and the cache have of a name -/

section

variable (lower : Char → Char) (plc : Plc) (c : Cache) (k : Name)

/-- The uploaded tables list the name: a symbol of the table, or a member of one. -/
def Lists : Prop :=
  ∃ datatypes us, plc.tables = .ok (datatypes, us) ∧ Names lower (Described datatypes (listed us)) k

/-- What the datatypes of the cache describe of a symbol list. -/
def Cache.describes (us : List Upload) : Info → Prop :=
  Described (c.datatypes.getD noDataTypes) (listed us)

/-- The uploaded symbol list has the name, or datatypes that were loaded make it a member: those of the
    cache first, then those of the PLC. -/
def Browses : Prop :=
  ∃ us, plc.symbols = some us ∧
    if c.datatypesLoaded then
      ∃ datatypes, plc.datatypes = some datatypes ∧ Names lower (Described datatypes (c.describes us)) k
    else Names lower (listed us) k

/-- A symbol that was resolved on demand has the key, and is resolved again. -/
def Resolves (names : List Name) : Prop :=
  ∃ name ∈ names, symbolKey lower name = k ∧ plc.client = true ∧ plc.info name ≠ none ∧
    plc.handle name ≠ none

/-- The name is known to the filter. -/
def Cache.Knows : Prop := k ∈ c.symbols ∨ k ∈ c.onDemandSymbols

/-- What a reconnect finds again, by the discovery mode of the cache before it. -/
def Rediscovers : Prop :=
  if c.symbolsFullyLoaded then Lists lower plc k ∨ k ∈ c.onDemandSymbols
  else if c.symbolListLoaded then Browses lower plc c k
  else if c.datatypesLoaded then c.Knows k
  else k ∈ c.onDemandSymbols ∨ c.onDemandSymbols = [] ∧ k ∈ c.symbols ∨
    Resolves lower plc k c.onDemandSymbols

/-- **What a reload retains**, by the tables of the PLC and what the cache had on file before. -/
def Retains : Trigger → Prop
  | .autoReload => Lists lower plc k
  | .reconnect => Rediscovers lower plc c k

end

variable {lower : Char → Char} {r : Ranging lower} {plc : Plc} {strict : Bool} {c c' : Cache} {k : Name}

/-- The symbol list as the datatypes of the cache expand it. -/
def Cache.expand (r : Ranging lower) (c : Cache) (us : List Upload) : SymbolMap :=
  match c.datatypes with
  | some old => r.rebuild old (r.parse noDataTypes us)
  | none => r.parse noDataTypes us

/-- The casing of names that the notifications compare by. -/
def casing (lower : Char → Char) (equalFold : Name → Name → Bool) : Casing Name Name :=
  { symbolKey := symbolKey lower, equalFold := equalFold }

/-- The cache as the re-subscribe sees it. -/
def Cache.seen (c : Cache) (sh : Notification.Shared Name Name) : Notification.Shared Name Name :=
  { sh with
    symbols := fun k => (c.symbols.lookup k).map fun s => s.info.fullName
    onDemandSymbols := c.onDemandSymbols.toFinset }

/-- It is the filter of the re-subscribe. -/
theorem filterValidPending_seen (equalFold : Name → Name → Bool) (sh : Notification.Shared Name Name)
    (ps : List (Notification.PendingNotification Name)) :
    Notification.filterValidPending (casing lower equalFold) (c.seen sh) ps =
      filterValidPending lower c ps := by
  unfold Notification.filterValidPending filterValidPending
  congr 1
  funext p
  simp [Cache.seen, Notification.PendingNotification.key, casing]

/-! ## What the loads leave -/

namespace Example

/-- A PLC that resolves every name, and whose symbol table is empty. -/
def bare : Plc where
  client := true
  running := true
  version := some 1
  uploadInfo := true
  datatypes := some noDataTypes
  symbols := some []
  info name := some
    { fullName := name, dataType := ['I', 'N', 'T'], length := 2, baseType := 2, group := 0x4020, offset := 0 }
  handle _ := some 7

/-- The cache after `getSymbol` of `a`. -/
def onDemand : Cache := (getSymbol id bare ['a'] .empty).1

def pending : List (Notification.PendingNotification Name) :=
  [{ config := { symbolName := ['a'], maxDelay := 0, cycleTime := 0, transmissionMode := .serverOnChange }
     resubscribeAttempts := 0 }]

end Example

open Example

end GoAds.Discovery
