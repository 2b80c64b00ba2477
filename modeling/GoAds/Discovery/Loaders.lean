import GoAds.Discovery.Table
import GoAds.Notification.Manager

/-!
# `Discovery.Loaders` — the loads, `getSymbol`, and what follows a reload

The functions that fill the symbol cache, one call after the other.  Each takes the answers of the PLC
during the call (`Plc`) and returns the cache it leaves, with its result; a load that fails leaves what it
has stored so far.  A request that a cancelled context or a lost connection cuts off is one that fails.

Left out are what no function here reads: the epoch, the values, and the delays between the requests.
-/

namespace GoAds.Discovery

/-- `symbolCache`.  `onDemandSymbols` is in the order it is ranged over. -/
structure Cache where
  symbols : SymbolMap
  datatypes : Option DataTypes
  symbolVersion : UInt8
  onDemandSymbols : List Name
  symbolListLoaded : Bool
  symbolsFullyLoaded : Bool
  datatypesLoaded : Bool

/-- The cache of a new session. -/
def Cache.empty : Cache :=
  { symbols := ∅, datatypes := none, symbolVersion := 0, onDemandSymbols := []
    symbolListLoaded := false, symbolsFullyLoaded := false, datatypesLoaded := false }

/-- Why a call fails. -/
inductive LoadErr
  | noClient
  | notRunning
  | version
  | uploadInfo
  /-- The table cannot be downloaded, or not parsed. -/
  | datatypes
  | symbols
  | lookup (name : Name)
  | handle (name : Name)

/-- What the PLC and the session answer during a call; `none` is a request that fails. -/
structure Plc where
  /-- `requireClient` permits. -/
  client : Bool
  /-- `requireRunningRuntime` permits. -/
  running : Bool
  version : Option UInt8
  uploadInfo : Bool
  datatypes : Option DataTypes
  symbols : Option (List Upload)
  /-- `GetSymbolInfoByName`. -/
  info : Name → Option Info
  /-- `GetHandleByName`. -/
  handle : Name → Option UInt32

/-- The orders in which the maps are ranged over during a call, by what they make the two functions
    leave. -/
structure Ranging (lower : Char → Char) where
  parse : DataTypes → List Upload → SymbolMap
  parse_spec : ∀ datatypes us, ParseSymbols lower datatypes us ∅ (parse datatypes us)
  rebuild : DataTypes → SymbolMap → SymbolMap
  rebuild_spec : ∀ datatypes m, RebuildSymbolChildren lower datatypes m (rebuild datatypes m)

theorem nonempty_ranging (lower : Char → Char) : Nonempty (Ranging lower) :=
  ⟨{ parse := fun d us => (exists_parseSymbols lower d us ∅).choose
     parse_spec := fun d us => (exists_parseSymbols lower d us ∅).choose_spec
     rebuild := fun d m => (exists_rebuildSymbolChildren lower d m).choose
     rebuild_spec := fun d m => (exists_rebuildSymbolChildren lower d m).choose_spec }⟩

variable {lower : Char → Char} (r : Ranging lower) (plc : Plc)

/-! ## Loads -/

/-- The symbol version is stored when it can be read. -/
def Cache.readVersion (c : Cache) : Cache := { c with symbolVersion := plc.version.getD c.symbolVersion }

/-- The two tables, requested in this order. -/
def Plc.tables : Except LoadErr (DataTypes × List Upload) :=
  if plc.uploadInfo then
    match plc.datatypes with
    | some datatypes =>
      match plc.symbols with
      | some us => .ok (datatypes, us)
      | none => .error .symbols
    | none => .error .datatypes
  else .error .uploadInfo

/-- `loadSymbols`.  The entries it replaces lose their handles; nothing here holds them any more. -/
def loadSymbols (c : Cache) : Cache × Except LoadErr Unit :=
  let c := c.readVersion plc
  match plc.tables with
  | .ok (datatypes, us) =>
    ({ c with datatypes := some datatypes, symbols := r.parse datatypes us }, .ok ())
  | .error e => (c, .error e)

/-- The gates of `LoadSymbols` and `LoadSymbolsSlow`. -/
def Plc.gate : Except LoadErr Unit :=
  if plc.client then if plc.running then .ok () else .error .notRunning else .error .noClient

/-- LoadSymbols. -/
def loadSymbolsFull (c : Cache) : Cache × Except LoadErr Unit :=
  match plc.gate with
  | .error e => (c, .error e)
  | .ok () =>
    match loadSymbols r plc c with
    | (c, .error e) => (c, .error e)
    | (c, .ok ()) => ({ c with symbolsFullyLoaded := true, onDemandSymbols := [] }, .ok ())

def loadSymbolsSlow (c : Cache) : Cache × Except LoadErr Unit :=
  match plc.gate with
  | .error e => (c, .error e)
  | .ok () =>
    let c := c.readVersion plc
    match plc.tables with
    | .ok (datatypes, us) =>
      ({ c with datatypes := some datatypes, symbols := r.parse datatypes us
                symbolsFullyLoaded := true, onDemandSymbols := [] }, .ok ())
    | .error e => (c, .error e)

/-- What `LoadSymbolList` stores.  Datatypes that were loaded before expand the new symbols. -/
def Cache.storeList (c : Cache) (us : List Upload) : Cache :=
  let symbols := r.parse noDataTypes us
  { c with
    symbols := match c.datatypesLoaded, c.datatypes with
      | true, some datatypes => r.rebuild datatypes symbols
      | _, _ => symbols
    symbolListLoaded := true
    onDemandSymbols := [] }

def loadSymbolList (c : Cache) : Cache × Except LoadErr Unit :=
  if plc.client then
    let c := c.readVersion plc
    if plc.uploadInfo then
      match plc.symbols with
      | some us => (c.storeList r us, .ok ())
      | none => (c, .error .symbols)
    else (c, .error .uploadInfo)
  else (c, .error .noClient)

/-- What `LoadDataTypes` stores.  A symbol list that was loaded before is expanded. -/
def Cache.storeDataTypes (c : Cache) (datatypes : DataTypes) : Cache :=
  { c with
    datatypes := some datatypes
    datatypesLoaded := true
    symbols := if c.symbolListLoaded then r.rebuild datatypes c.symbols else c.symbols }

def loadDataTypes (c : Cache) : Cache × Except LoadErr Unit :=
  if plc.client then
    if plc.uploadInfo then
      match plc.datatypes with
      | some datatypes => (c.storeDataTypes r datatypes, .ok ())
      | none => (c, .error .datatypes)
    else (c, .error .uploadInfo)
  else (c, .error .noClient)

/-- RefreshSymbols: the handles of the entries are released when the version has changed, and the tables
    are loaded. -/
def refreshSymbols (c : Cache) : Cache × Except LoadErr Unit :=
  if plc.client then
    match plc.version with
    | none => (c, .error .version)
    | some v => if v ≠ c.symbolVersion then loadSymbols r plc c else (c, .ok ())
  else (c, .error .noClient)

/-! ## What a load that succeeds has stored -/

section

variable {r plc} {c c' : Cache}

end

/-! ## One symbol -/

def Symbol.setHandle (s : Symbol) (h : UInt32) : Symbol := .mk { s.info with handle := h } s.children

variable (lower)

/-- `getSymbol`, with nobody in between. -/
def getSymbol (name : Name) (c : Cache) : Cache × Except LoadErr Symbol :=
  match c.symbols.lookup (symbolKey lower name) with
  | some s =>
    if s.info.handle ≠ 0 then (c, .ok s)
    else if plc.client then
      match plc.handle name with
      | some h =>
        ({ c with symbols := c.symbols.insert (symbolKey lower name) (s.setHandle h) }, .ok (s.setHandle h))
      | none => (c, .error (.handle name))
    else (c, .error .noClient)
  | none =>
    if plc.client then
      match plc.info name with
      | some info =>
        match plc.handle name with
        | some h =>
          -- filed under the requested name, with the name the PLC has answered
          let s := Symbol.mk { info with handle := h } []
          ({ c with symbols := c.symbols.insert (symbolKey lower name) s
                    onDemandSymbols := c.onDemandSymbols.insert (symbolKey lower name) }, .ok s)
        | none => (c, .error (.handle name))
      | none => (c, .error (.lookup name))
    else (c, .error .noClient)

/-! ## Reloads -/

/-- The loop of `reloadSymbols` over the symbols that were resolved on demand; in strict mode the first
    that fails ends it. -/
def resolveEach (strict : Bool) : List Name → Cache → Cache × Except LoadErr Unit
  | [], c => (c, .ok ())
  | name :: names, c =>
    match getSymbol lower plc name c with
    | (c, .ok _) => resolveEach strict names c
    | (c, .error e) => if strict then (c, .error e) else resolveEach strict names c

variable {lower}

/-- `reloadSymbols`: the discovery mode from before the connection dropped. -/
def reloadSymbols (strict : Bool) (c : Cache) : Cache × Except LoadErr Unit :=
  if c.symbolsFullyLoaded then loadSymbols r plc c
  else if c.symbolListLoaded || c.datatypesLoaded then
    match if c.symbolListLoaded then loadSymbolList r plc c else (c, .ok ()) with
    | (c', .error e) => (c', .error e)
    | (c', .ok ()) => if c.datatypesLoaded then loadDataTypes r plc c' else (c', .ok ())
  else if c.onDemandSymbols ≠ [] then
    resolveEach lower plc strict c.onDemandSymbols { c with symbols := ∅ }
  else (c.readVersion plc, .ok ())

/-- What runs before a re-subscribe. -/
inductive Trigger
  /-- `reloadSymbolsAndResubscribe`. -/
  | autoReload
  | reconnect

/-- The reload of a trigger; a re-subscribe follows when it succeeds. -/
def reload (strict : Bool) (c : Cache) : Trigger → Cache × Except LoadErr Unit
  | .autoReload => loadSymbolsFull r plc c
  | .reconnect => reloadSymbols r plc strict c

/-- `filterValidPending`: the entries whose symbol is in the cache, or was resolved on demand. -/
def filterValidPending (lower : Char → Char) (c : Cache)
    (entries : List (Notification.PendingNotification Name)) :
    List (Notification.PendingNotification Name) :=
  entries.filter fun p =>
    (c.symbols.lookup (symbolKey lower p.config.symbolName)).isSome ||
      decide (symbolKey lower p.config.symbolName ∈ c.onDemandSymbols)

end GoAds.Discovery
