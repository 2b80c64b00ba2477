import GoAds.Symbols.Cache

/-!
# `Symbols.System` — reads and writes by name, beside the loads that replace the cache

`getSymbol` looks a name up, and resolves it on the PLC when the cache does not have it or has it
without a handle; ReadFromSymbol, ReadMultipleSymbols and WriteMultipleSymbols call it and go on with
the pointer it returns.  Each step is one critical section of `cache.lock`, or one request to the PLC,
whose answer is part of the label.  Loads, auto-reloads and reconnects come in between at any point.

A load is here only its last critical section, the swap: what it downloaded is the label.  `parse` is a
parameter, since nothing here depends on what it computes, only on what it is given.
-/

namespace GoAds.Symbols

open Interleaving

variable {Key Layout Types : Type}

/-- `symbol.parse`, by the layout and the length of the symbol and the datatype table. -/
abbrev Parse (Layout Types : Type) := Layout → UInt32 → Types → List UInt8 → Option String

/-- The value of some bytes under a description. -/
def Desc.decode (parse : Parse Layout Types) (d : Desc Layout) (types : Types) (bytes : List UInt8) :
    Option String :=
  parse d.layout d.length types bytes

/-- An item of a request.  The description and the table it was built from are history. -/
structure Item (Key Layout Types : Type) where
  name : Key
  id : SymId
  address : UInt32 × UInt32
  desc : Desc Layout
  types : Types
  deriving DecidableEq

/-- When an answer of the PLC came, as history: after how many swaps, and on which connection. -/
structure Stamp where
  swaps : Nat
  connection : Nat
  deriving DecidableEq

/-- ReadMultipleSymbols or WriteMultipleSymbols, with the names that are left to resolve. -/
structure Batch (Key Layout Types : Type) where
  write : Bool
  names : List Key
  todo : List Key
  items : List (Item Key Layout Types)
  gen : Nat
  retriesLeft : Nat
  deriving DecidableEq

/-- Who has called `getSymbol`. -/
inductive Caller (Key Layout Types : Type)
  | alone
  | read (gen retriesLeft : Nat)
  | batch (b : Batch Key Layout Types)
  deriving DecidableEq

inductive Pc (Key Layout Types : Type)
  | idle
  -- `getSymbol`
  | lookup (n : Key) (k : Caller Key Layout Types)
  | handleRpc (n : Key) (id : SymId) (k : Caller Key Layout Types)
  | setHandle (n : Key) (id : SymId) (handle : UInt32) (k : Caller Key Layout Types)
  | infoRpc (n : Key) (k : Caller Key Layout Types)
  | onDemandRpc (n : Key) (desc : Desc Layout) (info : Stamp) (k : Caller Key Layout Types)
  | insert (n : Key) (desc : Desc Layout) (handle : UInt32) (info answer : Stamp)
      (k : Caller Key Layout Types)
  -- `readFromSymbolRetry`
  | snapshot (n : Key) (id : SymId) (gen retriesLeft : Nat)
  | readRpc (item : Item Key Layout Types) (gen retriesLeft : Nat)
  | readDecode (item : Item Key Layout Types) (bytes : List UInt8)
  -- `readMultipleSymbolsRetry` and `writeMultipleSymbolsRetry`
  | serialize (n : Key) (id : SymId) (b : Batch Key Layout Types)
  | select (n : Key) (id : SymId) (b : Batch Key Layout Types)
  | sumRpc (b : Batch Key Layout Types)
  | sumDone (b : Batch Key Layout Types) (results : List (UInt32 × List UInt8))
  deriving DecidableEq

inductive Act (Key Layout Types : Type)
  | next
  /-- The request fails, there is no client, or the value cannot be serialised. -/
  | fail
  | handle (h : UInt32)
  | info (d : Desc Layout)
  /-- Whether the cached value is younger than `MinUpdateInterval`. -/
  | fresh (b : Bool)
  /-- The bytes of a read, or nil. -/
  | data (bytes : Option (List UInt8))
  /-- The return codes and the bytes of a sum command. -/
  | results (rs : List (UInt32 × List UInt8))
  | getSymbol (n : Key)
  | readFromSymbol (n : Key)
  | readMultipleSymbols (names : List Key)
  | writeMultipleSymbols (names : List Key)
  | swap (zeroed : Bool) (types : Option Types) (table : List (Key × Desc Layout))
  | expand (types : Types) (layouts : List (Key × Layout)) (added : List (Key × Desc Layout))
  | zero (values : Bool)
  | bump
  | reconnect
  /-- A notification sample of a name, decoded by its entry. -/
  | sample (n : Key) (bytes : List UInt8)

/-- The next name of a batch, or its request. -/
def Batch.go (b : Batch Key Layout Types) : Pc Key Layout Types :=
  match b.todo with
  | n :: rest => .lookup n (.batch { b with todo := rest })
  | [] => if b.items.isEmpty then .idle else .sumRpc b

def Batch.start (write : Bool) (names : List Key) (gen retriesLeft : Nat) : Batch Key Layout Types :=
  { write, names, todo := names, items := [], gen, retriesLeft }

/-- `getSymbol` returns an object to its caller. -/
def Caller.got (n : Key) (id : SymId) : Caller Key Layout Types → Pc Key Layout Types
  | .alone => .idle
  | .read gen r => .snapshot n id gen r
  | .batch b => if b.write then .serialize n id b else .select n id b

/-- `getSymbol` returns an error: a read returns it, a batch leaves the name out. -/
def Caller.failed : Caller Key Layout Types → Pc Key Layout Types
  | .alone | .read _ _ => .idle
  | .batch b => b.go

variable [DecidableEq Key] (parse : Parse Layout Types) (c : Cache Key Layout Types)

def Cache.stamp : Stamp := ⟨c.swaps, c.connection⟩

/-- The item that a request for an object is built as. -/
def Cache.item (n : Key) (id : SymId) (address : UInt32 × UInt32) : Item Key Layout Types :=
  ⟨n, id, address, (c.heap id).desc, c.datatypes⟩

/-- What ReadMultipleSymbols makes of one result: the live entry of the name decodes it. -/
def Cache.decodeItem (p : Item Key Layout Types × (UInt32 × List UInt8)) :
    Option (Key × SymId × Decoded Layout Types) :=
  if p.2.1 ≠ 0 then none
  else
    match c.entry p.1.name with
    | none => none
    | some id =>
      ((c.heap id).desc.decode parse c.datatypes p.2.2).map fun v =>
        (p.1.name, id, ⟨v, p.2.2, p.1.desc, p.1.types⟩)

/-- The values of a batch read, each with the entry it is stored in. -/
def Cache.decodeItems (b : Batch Key Layout Types) (rs : List (UInt32 × List UInt8)) :
    List (Key × SymId × Decoded Layout Types) :=
  (b.items.zip rs).filterMap (c.decodeItem parse)

/-- The entries of the names that a batch write has written. -/
def Cache.written (b : Batch Key Layout Types) (rs : List (UInt32 × List UInt8)) : List SymId :=
  (b.items.zip rs).filterMap fun p => if p.2.1 = 0 then c.entry p.1.name else none

def getStep : Pc Key Layout Types → Act Key Layout Types →
    Option (Pc Key Layout Types × Effect Key Layout Types)
  | .lookup n k, .next =>
    match c.entry n with
    | some id =>
      if (c.heap id).handle = 0 then some (.handleRpc n id k, .none) else some (k.got n id, .none)
    | none => some (.infoRpc n k, .none)
  | .handleRpc n id k, .handle h => some (.setHandle n id h k, .none)
  | .handleRpc _ _ k, .fail => some (k.failed, .none)
  | .setHandle n id h k, .next =>
    -- the cache was swapped meanwhile, or another goroutine was faster
    if c.entry n ≠ some id then some (k.failed, .none)
    else if (c.heap id).handle ≠ 0 then some (k.got n id, .none)
    else some (k.got n id, .setHandle id h)
  | .infoRpc n k, .info d => some (.onDemandRpc n d c.stamp k, .none)
  | .infoRpc _ k, .fail => some (k.failed, .none)
  | .onDemandRpc n d info k, .handle h => some (.insert n d h info c.stamp k, .none)
  | .onDemandRpc _ _ _ k, .fail => some (k.failed, .none)
  | .insert n d h _ _ k, .next =>
    match c.entry n with
    | some existing => some (k.got n existing, .none)
    | none => some (k.got n c.next, .insert n d h)
  | _, _ => none

def readStep : Pc Key Layout Types → Act Key Layout Types →
    Option (Pc Key Layout Types × Effect Key Layout Types)
  | .snapshot n id gen r, .fresh fresh =>
    match (c.heap id).value with
    | some d =>
      if fresh = true ∧ d.value ≠ "" then some (.idle, .none)
      else some (.readRpc (c.item n id (groupSymbolValueByHandle, (c.heap id).handle)) gen r, .none)
    | none =>
      some (.readRpc (c.item n id (groupSymbolValueByHandle, (c.heap id).handle)) gen r, .none)
  | .readRpc item _ _, .data bytes =>
    match bytes with
    | some bs =>
      -- an answer of another length is an online change
      if item.desc.length ≠ 0 ∧ bs.length ≠ item.desc.length.toNat then some (.idle, .none)
      else some (.readDecode item bs, .none)
    | none => some (.readDecode item [], .none)
  | .readRpc item gen r, .fail =>
    if r ≠ 0 ∧ c.epoch ≠ gen then some (.lookup item.name (.read c.epoch (r - 1)), .none)
    else some (.idle, .none)
  | .readDecode item bytes, .next =>
    match (c.heap item.id).desc.decode parse item.types bytes with
    | some v => some (.idle, .store [(item.id, ⟨v, bytes, item.desc, item.types⟩)])
    | none => some (.idle, .none)
  | _, _ => none

/-- The steps of ReadMultipleSymbols and WriteMultipleSymbols. -/
def batchStep : Pc Key Layout Types → Act Key Layout Types →
    Option (Pc Key Layout Types × Effect Key Layout Types)
  | .serialize n id b, .next => some (.select n id b, .none)
  | .serialize _ _ b, .fail => some (b.go, .none)
  | .select n id b, .next =>
    some (Batch.go { b with items := b.items ++ [c.item n id (c.heap id).sumAddress] }, .none)
  | .sumRpc b, .results rs => some (.sumDone b rs, .none)
  | .sumRpc b, .fail =>
    if b.retriesLeft ≠ 0 ∧ c.epoch ≠ b.gen then
      some ((Batch.start b.write b.names c.epoch (b.retriesLeft - 1)).go, .none)
    else some (.idle, .none)
  | .sumDone b rs, .next =>
    if b.write then some (.idle, .drop (c.written b rs))
    else some (.idle, .store ((c.decodeItems parse b rs).map Prod.snd))
  | _, _ => none

/-- What an idle goroutine can begin, and what the rest of the session does to the cache. -/
def idleStep : Act Key Layout Types → Option (Pc Key Layout Types × Effect Key Layout Types)
  | .getSymbol n => some (.lookup n .alone, .none)
  | .readFromSymbol n => some (.lookup n (.read c.epoch 1), .none)
  | .readMultipleSymbols names => some ((Batch.start false names c.epoch 1).go, .none)
  | .writeMultipleSymbols names => some ((Batch.start true names c.epoch 1).go, .none)
  | .swap zeroed types table => some (.idle, .swap zeroed types table)
  | .expand types layouts added => some (.idle, .expand types layouts added)
  | .zero values => some (.idle, .zero values)
  | .bump => some (.idle, .bump)
  | .reconnect => some (.idle, .reconnect)
  | .sample n bytes =>
    match c.entry n with
    | some id =>
      match (c.heap id).desc.decode parse c.datatypes bytes with
      | some v => some (.idle, .store [(id, ⟨v, bytes, (c.heap id).desc, c.datatypes⟩)])
      | none => some (.idle, .none)
    | none => some (.idle, .none)
  | _ => none

def plan (pc : Pc Key Layout Types) (a : Act Key Layout Types) :
    Option (Pc Key Layout Types × Effect Key Layout Types) :=
  match pc with
  | .idle => idleStep parse c a
  | .snapshot .. | .readRpc .. | .readDecode .. => readStep parse c pc a
  | .serialize .. | .select .. | .sumRpc .. | .sumDone .. => batchStep parse c pc a
  | _ => getStep c pc a

variable {c}

def act (_ : Nat) (pc : Pc Key Layout Types) (c : Cache Key Layout Types) (a : Act Key Layout Types) :
    Option (Pc Key Layout Types × Cache Key Layout Types) :=
  (plan parse c pc a).map fun r => (r.1, r.2.run c)

abbrev State (Key Layout Types : Type) := Conf Nat (Cache Key Layout Types) (Pc Key Layout Types)

def step : State Key Layout Types → Nat × Act Key Layout Types → Option (State Key Layout Types) :=
  Conf.exec (act parse)

/-- A session that has loaded nothing yet. -/
def init (heap : SymId → Symbol Layout Types) (types : Types) : State Key Layout Types where
  shared :=
    { heap, next := 0, symbols := [], datatypes := types, epoch := 0, swaps := 0, connection := 0 }
  loc _ := .idle

end GoAds.Symbols
