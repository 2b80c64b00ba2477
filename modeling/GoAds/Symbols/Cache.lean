import GoAds.Lib.Interleaving

/-!
# `Symbols.Cache` — the symbol cache of a session

`cache.symbols` maps names to symbol objects.  Callers keep pointers to these objects across critical
sections, so the objects live in a heap of their own: a load replaces the map and leaves the objects it
replaces to whoever still holds them.

* A name stands for its `symbolKey`; two spellings of one name are one name here.
* What `parse` and `writeToNode` read of a symbol besides its length (`DataType`, `BaseType`,
  `Children`) is its layout, an arbitrary type.
* A cached value carries the bytes and the description it was decoded with, as history.
-/

namespace GoAds.Symbols

open Interleaving

/-- What the PLC said about a symbol. -/
structure Desc (Layout : Type) where
  layout : Layout
  length : UInt32
  group : UInt32
  offset : UInt32
  /-- The offsets of the chain of parents, from the inside out. -/
  parents : List UInt32
  deriving DecidableEq

/-- The part of a description that decides how bytes are read. -/
def Desc.SameShape {Layout : Type} (d d' : Desc Layout) : Prop :=
  d.layout = d'.layout ∧ d.length = d'.length

/-- A value, with the bytes and the description it was decoded from. -/
structure Decoded (Layout Types : Type) where
  value : String
  bytes : List UInt8
  desc : Desc Layout
  types : Types
  deriving DecidableEq

structure Symbol (Layout Types : Type) where
  desc : Desc Layout
  handle : UInt32
  /-- The field `Value`, when a value has been stored. -/
  value : Option (Decoded Layout Types)

def groupSymbolValueByHandle : UInt32 := 0xF005

variable {Key Layout Types : Type}

/-- The symbol has no handle, and its direct address is used in its place. -/
def Symbol.direct (s : Symbol Layout Types) : Bool :=
  s.handle == 0 && s.desc.group != 0

/-- `symbolSumAddress`: the group and the offset of a symbol in a sum command. -/
def Symbol.sumAddress (s : Symbol Layout Types) : UInt32 × UInt32 :=
  if s.handle ≠ 0 then (groupSymbolValueByHandle, s.handle)
  else if s.desc.group ≠ 0 then (s.desc.group, s.desc.parents.foldl (· + ·) s.desc.offset)
  else (groupSymbolValueByHandle, s.handle)

/-- A pointer to a symbol object. -/
abbrev SymId := Nat

/-- The state under `cache.lock`, with the epoch and the connection. -/
structure Cache (Key Layout Types : Type) where
  heap : SymId → Symbol Layout Types
  /-- The objects below are allocated. -/
  next : SymId
  symbols : List (Key × SymId)
  datatypes : Types
  epoch : Nat
  /-- How often `cache.symbols` has been replaced, as history. -/
  swaps : Nat
  /-- Which connection the session is on. -/
  connection : Nat

namespace Cache

variable [DecidableEq Key] (c : Cache Key Layout Types)

/-- The entry of a name in `cache.symbols`. -/
def entry (key : Key) : Option SymId := c.symbols.lookup key

/-- The object is an entry of `cache.symbols`. -/
def listed (id : SymId) : Bool := c.symbols.any fun p => p.2 == id

/-- New objects, in the order of their descriptions. -/
def allocate (descs : List (Desc Layout)) : Cache Key Layout Types :=
  { c with
    heap := fun id =>
      if c.next ≤ id then
        match descs[id - c.next]? with
        | some d => { desc := d, handle := 0, value := none }
        | none => c.heap id
      else c.heap id
    next := c.next + descs.length }

/-- The map of a table whose objects are allocated from `next` on. -/
def mapOf (next : SymId) (table : List (Key × Desc Layout)) : List (Key × SymId) :=
  (table.map Prod.fst).zipIdx next

/-- The objects that are entries lose their handles, and their values too if `values` is set. -/
def zeroHandles (values : Bool) : Cache Key Layout Types :=
  { c with
    heap := fun id =>
      if c.listed id then
        { c.heap id with handle := 0, value := if values then none else (c.heap id).value }
      else c.heap id }

/-- The value of an object is replaced. -/
def setValue (id : SymId) (d : Option (Decoded Layout Types)) : Cache Key Layout Types :=
  { c with heap := Function.update c.heap id { c.heap id with value := d } }

/-- Several values are replaced, in order. -/
def setValues (ds : List (SymId × Option (Decoded Layout Types))) : Cache Key Layout Types :=
  ds.foldl (fun c p => c.setValue p.1 p.2) c

def setHandle (id : SymId) (handle : UInt32) : Cache Key Layout Types :=
  { c with heap := Function.update c.heap id { c.heap id with handle := handle } }

/-- The children of the entries are built anew, in place. -/
def relayout (layouts : List (Key × Layout)) : Cache Key Layout Types :=
  { c with
    heap := fun id =>
      match layouts.find? fun p => c.entry p.1 = some id with
      | some p => { c.heap id with desc := { (c.heap id).desc with layout := p.2 } }
      | none => c.heap id }

end Cache

/-- What one critical section does to the cache. -/
inductive Effect (Key Layout Types : Type)
  | none
  | setHandle (id : SymId) (handle : UInt32)
  /-- The insert of an on-demand resolve. -/
  | insert (key : Key) (desc : Desc Layout) (handle : UInt32)
  /-- A read stores the values it has decoded. -/
  | store (ds : List (SymId × Decoded Layout Types))
  /-- A batch write drops the cached values of the symbols it wrote. -/
  | drop (ids : List SymId)
  /-- A load replaces `cache.symbols`; `loadSymbols` zeroes the handles and the values of the entries
      it replaces first. -/
  | swap (zeroed : Bool) (types : Option Types) (table : List (Key × Desc Layout))
  /-- `LoadDataTypes`: the children of the entries are built anew, and entries for children are
      added. -/
  | expand (types : Types) (layouts : List (Key × Layout)) (added : List (Key × Desc Layout))
  /-- RefreshSymbols zeroes the handles of all entries, an auto-reload also their values. -/
  | zero (values : Bool)
  | bump
  | reconnect

variable [DecidableEq Key]

def Effect.run : Effect Key Layout Types → Cache Key Layout Types → Cache Key Layout Types
  | .none, c => c
  | .setHandle id handle, c => c.setHandle id handle
  | .insert key desc handle, c =>
    { (c.allocate [desc]).setHandle c.next handle with symbols := (key, c.next) :: c.symbols }
  | .store ds, c => c.setValues (ds.map fun p => (p.1, some p.2))
  | .drop ids, c => c.setValues (ids.map fun id => (id, Option.none))
  | .swap zeroed types table, c =>
    { (if zeroed then c.zeroHandles true else c).allocate (table.map Prod.snd) with
      symbols := Cache.mapOf c.next table
      datatypes := types.getD c.datatypes
      epoch := c.epoch + 1
      swaps := c.swaps + 1 }
  | .expand types layouts added, c =>
    -- a child whose name has an entry is not added
    let added := added.filter fun p => (c.entry p.1).isNone
    { (c.relayout layouts).allocate (added.map Prod.snd) with
      symbols := c.symbols ++ Cache.mapOf c.next added
      datatypes := types
      epoch := c.epoch + 1 }
  | .zero values, c => c.zeroHandles values
  | .bump, c => { c with epoch := c.epoch + 1 }
  | .reconnect, c => { c with connection := c.connection + 1 }

end GoAds.Symbols
