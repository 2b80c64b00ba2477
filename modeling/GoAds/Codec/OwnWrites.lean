import GoAds.Codec.Layout
import GoAds.Codec.Resolve
import GoAds.Codec.JsonText
import GoAds.Lib.Interleaving

/-!
# `Codec.OwnWrites` — reading what one has written

A symbol keeps the last value that was decoded for it and when.  `ReadFromSymbol` returns that value
while it is younger than `MinUpdateInterval`; any other read decodes the PLC's bytes anew, and decoding a
struct refreshes its members as well.  A write clears the value of the symbol it is made to, and of no
other, although the bytes it changes are also those of the structs around it and of its members.

* The calls are made one after the other.  What comes from outside is in the label of a call: the clock,
  the PLC's answers, which may be any bytes, and the order in which the members are ranged over.
* A retry is a call that fails and the same call again.
* `log` and `decodedAt` are history: what was returned and written, and how much of the log there was when
  a value was decoded.  No call reads them.
-/

namespace GoAds.Codec.OwnWrites

open Interleaving Function List
open Function (update)

/-! ## The cache -/

/-- The fields of a symbol that reads and writes change. -/
structure Cell where
  value : Text
  lastUpdateTime : Int
  decodedAt : Nat

/-- What the calls did. -/
inductive Event
  | read (key : String) (value : Text) (decodedAt : Nat)
  | wrote (key : String)

/-- The symbols by their keys, and the history. -/
structure Cache where
  cells : String → Cell
  log : List Event

/-- A cache with values decoded before anything is written. -/
def start (value : String → Text) (lastUpdateTime : String → Int) : Cache :=
  ⟨fun key => ⟨value key, lastUpdateTime key, 0⟩, []⟩

def Cache.set (c : Cache) (key : String) (cell : Cell) : Cache :=
  { c with cells := update c.cells key cell }

/-- A value that is decoded now. -/
def Cache.decoded (c : Cache) (key : String) (value : Text) (time : Int) : Cache :=
  c.set key ⟨value, time, c.log.length⟩

/-- A write that succeeded. -/
def Cache.wrote (c : Cache) (key : String) : Cache :=
  { c.set key { c.cells key with value := [] } with log := c.log ++ [.wrote key] }

/-! ## Decoding -/

section Decode

variable (go : Go) (datatypes : DataTypes) (clock : String → Int)

mutual

/-- What `symbol.parse` leaves in the symbols: the members up to the first that fails are refreshed, and
    the symbol itself if none does. -/
def refresh : Symbol → Bytes → Nat → Cache → Cache
  | .mk info [], data, start, c =>
    match (Symbol.mk info []).parse go datatypes data start with
    | .error _ => c
    | .ok s' => c.decoded info.fullName s'.value (clock info.fullName)
  | .mk info (m :: ms), data, start, c =>
    let length := info.length.toNat
    if length > data.length then c
    else
      let stop := if start + length > data.length then data.length else start + length
      if stop < start then c
      else
        let c := refreshAll (m :: ms) ((data.drop start).take (stop - start)) c
        match (Symbol.mk info (m :: ms)).parse go datatypes data start with
        | .error _ => c
        | .ok s' => c.decoded info.fullName s'.value (clock info.fullName)

def refreshAll : List Symbol → Bytes → Cache → Cache
  | [], _, c => c
  | m :: ms, data, c =>
    let c := refresh m data m.info.offset.toNat c
    match m.parse go datatypes data m.info.offset.toNat with
    | .error _ => c
    | .ok _ => refreshAll ms data c

end

end Decode

/-! ## The calls -/

/-- A symbol that is read: with its members in the order of this call, the times that `time.Now` returns
    while it is decoded, and the PLC's answer, if there is one. -/
structure ReadItem where
  symbol : Symbol
  clock : String → Int
  answer : Option Bytes

/-- A symbol that is written, and whether the PLC accepts it. -/
structure WriteItem where
  symbol : Symbol
  value : Text
  accepted : Bool

inductive Act
  | readFromSymbol (now : Int) (item : ReadItem)
  | readMultipleSymbols (items : List ReadItem)
  | writeToSymbol (item : WriteItem)
  | writeMultipleSymbols (items : List WriteItem)

def ReadItem.key (item : ReadItem) : String := item.symbol.info.fullName

def WriteItem.key (item : WriteItem) : String := item.symbol.info.fullName

section Calls

variable (go : Go) (datatypes : DataTypes) (minUpdateInterval : String → Int)

/-- The PLC's bytes are decoded and the symbol gets its value. -/
def decodeItem (item : ReadItem) (data : Bytes) (c : Cache) : Except CodecErr Text × Cache :=
  match item.symbol.parse go datatypes data 0 with
  | .error e => (.error e, refresh go datatypes item.clock item.symbol data 0 c)
  | .ok s' =>
    (.ok s'.value, (refresh go datatypes item.clock item.symbol data 0 c).decoded item.key s'.value
      (item.clock item.key))

def readFromSymbol (now : Int) (item : ReadItem) (c : Cache) : Cache :=
  let cell := c.cells item.key
  if now - cell.lastUpdateTime < minUpdateInterval item.key ∧ cell.value ≠ [] then
    { c with log := c.log ++ [.read item.key cell.value cell.decodedAt] }
  else
    match item.answer with
    | none => c
    | some data =>
      if 0 < item.symbol.info.length.toNat ∧ data.length ≠ item.symbol.info.length.toNat then c
      else
        match decodeItem go datatypes item data c with
        | (.error _, c') => c'
        | (.ok value, c') => { c' with log := c'.log ++ [.read item.key value c.log.length] }

/-- `ReadMultipleSymbols`, for the items that are asked for. -/
def readMultipleSymbols : List ReadItem → Cache → Cache
  | [], c => c
  | item :: items, c =>
    match item.answer with
    | none => readMultipleSymbols items c
    | some data => readMultipleSymbols items (decodeItem go datatypes item data c).2

/-- `WriteToSymbol`: a value that cannot be encoded is not sent. -/
def writeToSymbol (item : WriteItem) (c : Cache) : Cache :=
  match item.symbol.writeToNode go datatypes item.value with
  | .error _ => c
  | .ok _ => if item.accepted then c.wrote item.key else c

/-- `WriteMultipleSymbols`: every item is cleared by its own result. -/
def writeMultipleSymbols (items : List WriteItem) (c : Cache) : Cache :=
  items.foldl (fun c item => writeToSymbol go datatypes item c) c

def exec (c : Cache) : Act → Option Cache
  | .readFromSymbol now item => some (readFromSymbol go datatypes minUpdateInterval now item c)
  | .readMultipleSymbols items => some (readMultipleSymbols go datatypes items c)
  | .writeToSymbol item => some (writeToSymbol go datatypes item c)
  | .writeMultipleSymbols items => some (writeMultipleSymbols go datatypes items c)

end Calls

/-! ## The contract and the condition -/

/-- The keys of a symbol and of everything in it. -/
inductive KeyIn (key : String) : Symbol → Prop
  | here {info : Info} {cs : List Symbol} (h : info.fullName = key) : KeyIn key (.mk info cs)
  | member {info : Info} {cs : List Symbol} {m : Symbol} (hm : m ∈ cs) (h : KeyIn key m) :
      KeyIn key (.mk info cs)

/-- A symbol of a tree. -/
inductive Within : Symbol → Symbol → Prop
  | self (s : Symbol) : Within s s
  | member {info : Info} {cs : List Symbol} {m s : Symbol} (hm : m ∈ cs) (h : Within s m) :
      Within s (.mk info cs)

/-- The bytes of one symbol are among those of the other: it is the other, or in it. -/
def Overlaps (trees : List Symbol) (a b : String) : Prop :=
  ∃ t ∈ trees, ∃ s, Within s t ∧ (s.info.fullName = a ∧ KeyIn b s ∨ s.info.fullName = b ∧ KeyIn a s)

/-- **No read returns a value that was decoded before a write to an overlapping symbol**: the value of
    a read behind the write at place `i` of the log was decoded behind it as well. -/
def ReadsOwnWrites (trees : List Symbol) (log : List Event) : Prop :=
  ∀ (i j : Nat) a b value decodedAt, log[i]? = some (.wrote a) →
    log[j]? = some (.read b value decodedAt) → i < j → Overlaps trees a b → i < decodedAt

/-- The symbols that a call writes. -/
def Act.written : Act → List String
  | .writeToSymbol item => [item.key]
  | .writeMultipleSymbols items => items.map WriteItem.key
  | _ => []

/-- **When a symbol is written, no other that overlaps it has a cached value.** -/
def Uncached (trees : List Symbol) (c : Cache) (a : Act) : Prop :=
  ∀ key ∈ a.written, ∀ b, Overlaps trees key b → b ≠ key → (c.cells b).value = []

/-! ## What decoding changes -/

/-- Only cells have changed, and those that have were decoded now. -/
structure Refreshed (c c' : Cache) : Prop where
  log : c'.log = c.log
  cells : ∀ b, c'.cells b = c.cells b ∨ (c'.cells b).decodedAt = c.log.length

theorem Refreshed.refl (c : Cache) : Refreshed c c := ⟨rfl, fun _ => .inl rfl⟩

theorem Refreshed.trans {c c' c''} (h : Refreshed c c') (h' : Refreshed c' c'') : Refreshed c c'' := by
  refine ⟨h'.log.trans h.log, fun b => ?_⟩
  rcases h'.cells b with hsame | hnow
  · rw [hsame]
    exact h.cells b
  · exact .inr (hnow.trans (congrArg List.length h.log))

theorem refreshed_decoded (c : Cache) (key : String) (value : Text) (time : Int) :
    Refreshed c (c.decoded key value time) := by
  refine ⟨rfl, fun b => ?_⟩
  by_cases hb : b = key
  · subst hb
    refine .inr ?_
    show (update c.cells b _ b).decodedAt = _
    rw [update_self]
  refine .inl ?_
  show update c.cells key _ b = _
  rw [update_of_ne hb]

section Decode

variable {go : Go} {datatypes : DataTypes} {clock : String → Int}

theorem refreshed_all {ms}
    (h : ∀ m ∈ ms, ∀ data start c, Refreshed c (refresh go datatypes clock m data start c))
    (data : Bytes) (c : Cache) : Refreshed c (refreshAll go datatypes clock ms data c) := by
  induction ms generalizing c with
  | nil =>
    rw [refreshAll]
    exact .refl c
  | cons m ms ih =>
    have hm := h m (mem_cons_self ..) data m.info.offset.toNat c
    rw [refreshAll]
    cases m.parse go datatypes data m.info.offset.toNat with
    | error => exact hm
    | ok => exact hm.trans (ih (fun m' hm' => h m' (mem_cons_of_mem m hm')) _)

theorem refreshed_refresh (s : Symbol) :
    ∀ data start c, Refreshed c (refresh go datatypes clock s data start c) := by
  induction s using Symbol.induction with
  | node info ms ih =>
    intro data start c
    cases ms with
    | nil =>
      rw [refresh]
      cases (Symbol.mk info []).parse go datatypes data start with
      | error => exact .refl c
      | ok => exact refreshed_decoded c ..
    | cons m ms =>
      rw [refresh]
      split
      · exact .refl c
      dsimp only
      -- wherever the window ends
      generalize (if start + info.length.toNat > data.length then data.length
        else start + info.length.toNat) = stop
      by_cases hstop : stop < start
      · rw [if_pos hstop]
        exact .refl c
      rw [if_neg hstop]
      cases (Symbol.mk info (m :: ms)).parse go datatypes data start with
      | error => exact refreshed_all ih _ c
      | ok => exact (refreshed_all ih _ c).trans (refreshed_decoded _ ..)

theorem refreshed_decodeItem (item : ReadItem) (data : Bytes) (c : Cache) :
    Refreshed c (decodeItem go datatypes item data c).2 := by
  unfold decodeItem
  cases item.symbol.parse go datatypes data 0 with
  | error => exact refreshed_refresh item.symbol data 0 c
  | ok => exact (refreshed_refresh item.symbol data 0 c).trans (refreshed_decoded _ ..)

theorem refreshed_readMultipleSymbols (items : List ReadItem) (c : Cache) :
    Refreshed c (readMultipleSymbols go datatypes items c) := by
  induction items generalizing c with
  | nil => exact .refl c
  | cons item items ih =>
    rw [readMultipleSymbols]
    cases item.answer with
    | none => exact ih c
    | some data => exact (refreshed_decodeItem item data c).trans (ih _)

end Decode

/-! ## The log grows -/

variable {x : Event} {log : List Event} {i : Nat} {key : String}

theorem getElem?_snoc {e} (h : (log ++ [e])[i]? = some x) :
    log[i]? = some x ∨ (i = log.length ∧ x = e) := by
  rcases Nat.lt_trichotomy i log.length with hlt | heq | hgt
  · rw [getElem?_append_left hlt] at h
    exact .inl h
  · subst heq
    rw [getElem?_concat_length] at h
    exact .inr ⟨rfl, (Option.some.inj h).symm⟩
  · rw [getElem?_eq_none (by rw [length_append, length_singleton]; omega)] at h
    cases h

theorem lt_of_getElem? (h : log[i]? = some x) : i < log.length :=
  (List.getElem?_eq_some_iff.1 h).1

variable {trees : List Symbol} {c c' : Cache}

/-- Every value in the cache was decoded behind every write to a symbol that overlaps its own. -/
def Current (trees : List Symbol) (c : Cache) : Prop :=
  ∀ b, (c.cells b).value ≠ [] → ∀ a (i : Nat), Overlaps trees a b → c.log[i]? = some (.wrote a) →
    i < (c.cells b).decodedAt

theorem Current.refreshed (h : Current trees c) (hr : Refreshed c c') : Current trees c' := by
  intro b hvalue a i hover hi
  rw [hr.log] at hi
  rcases hr.cells b with hsame | hnow
  · rw [hsame] at hvalue ⊢
    exact h b hvalue a i hover hi
  · rw [hnow]
    exact lt_of_getElem? hi

theorem Current.read (h : Current trees c) (key : String) (value : Text) (decodedAt : Nat) :
    Current trees { c with log := c.log ++ [.read key value decodedAt] } := by
  intro b hvalue a i hover hi
  rcases getElem?_snoc hi with hi | ⟨-, heq⟩
  · exact h b hvalue a i hover hi
  · cases heq

/-- **A write keeps the cache current if nothing else that overlaps has a value.** -/
theorem Current.wrote (h : Current trees c)
    (hguard : ∀ b, Overlaps trees key b → b ≠ key → (c.cells b).value = []) : Current trees (c.wrote key) := by
  intro b hvalue a i hover hi
  have hb : b ≠ key := by
    rintro rfl
    refine hvalue ?_
    show (update c.cells b _ b).value = []
    rw [update_self]
  have hcell : (c.wrote key).cells b = c.cells b := by
    show update c.cells key _ b = _
    rw [update_of_ne hb]
  rw [hcell] at hvalue ⊢
  rcases getElem?_snoc hi with hi | ⟨-, heq⟩
  · exact h b hvalue a i hover hi
  · obtain rfl := Event.wrote.inj heq
    exact absurd (hguard b hover hb) hvalue

theorem ReadsOwnWrites.read (h : ReadsOwnWrites trees log) {value decodedAt}
    (hfresh : ∀ a (i : Nat), Overlaps trees a key → log[i]? = some (.wrote a) → i < decodedAt) :
    ReadsOwnWrites trees (log ++ [.read key value decodedAt]) := by
  intro i j a b value' d hi hj hlt hover
  have hi' : log[i]? = some (.wrote a) := by
    rcases getElem?_snoc hi with hi | ⟨-, heq⟩
    · exact hi
    · cases heq
  rcases getElem?_snoc hj with hj | ⟨-, heq⟩
  · exact h i j a b value' d hi' hj hlt hover
  · obtain ⟨rfl, -, rfl⟩ := Event.read.inj heq
    exact hfresh a i hover hi'

theorem ReadsOwnWrites.wrote (h : ReadsOwnWrites trees log) (key : String) :
    ReadsOwnWrites trees (log ++ [.wrote key]) := by
  intro i j a b value d hi hj hlt hover
  rcases getElem?_snoc hj with hj | ⟨-, heq⟩
  · rcases getElem?_snoc hi with hi | ⟨rfl, -⟩
    · exact h i j a b value d hi hj hlt hover
    · have := lt_of_getElem? hj
      omega
  · cases heq

/-! ## Calls and runs -/

section Calls

variable {go : Go} {datatypes : DataTypes} {minUpdateInterval : String → Int}

/-- The cache is current, and so was everything that was returned. -/
structure Sound (trees : List Symbol) (c : Cache) : Prop where
  current : Current trees c
  log : ReadsOwnWrites trees c.log

theorem Sound.refreshed (h : Sound trees c) (hr : Refreshed c c') : Sound trees c' := by
  refine ⟨h.current.refreshed hr, ?_⟩
  rw [hr.log]
  exact h.log

theorem Sound.readFromSymbol (h : Sound trees c) (now : Int) (item : ReadItem) :
    Sound trees (readFromSymbol go datatypes minUpdateInterval now item c) := by
  unfold OwnWrites.readFromSymbol
  dsimp only
  split
  · -- served from the cache, which is current
    next hcached =>
    refine ⟨h.current.read _ _ _, h.log.read ?_⟩
    exact fun a i hover hi => h.current item.key hcached.2 a i hover hi
  split
  · exact h
  next data _ =>
  split
  · exact h
  have hr : Refreshed c (decodeItem go datatypes item data c).2 := refreshed_decodeItem item data c
  split
  · next e c' heq =>
    rw [heq] at hr
    exact h.refreshed hr
  -- decoded now, behind every write
  next value c' heq =>
  rw [heq] at hr
  have h' := h.refreshed hr
  refine ⟨h'.current.read _ _ _, h'.log.read ?_⟩
  intro a i hover hi
  rw [hr.log] at hi
  exact lt_of_getElem? hi

theorem Sound.writeToSymbol (h : Sound trees c) (item : WriteItem)
    (hguard : ∀ b, Overlaps trees item.key b → b ≠ item.key → (c.cells b).value = []) :
    Sound trees (writeToSymbol go datatypes item c) := by
  unfold OwnWrites.writeToSymbol
  split
  · exact h
  split
  · exact ⟨h.current.wrote hguard, h.log.wrote item.key⟩
  · exact h

theorem writeToSymbol_empty {item b} (h : (c.cells b).value = []) :
    ((writeToSymbol go datatypes item c).cells b).value = [] := by
  unfold OwnWrites.writeToSymbol
  split
  · exact h
  split
  · show (update c.cells item.key _ b).value = []
    by_cases hb : b = item.key
    · subst hb
      rw [update_self]
    · rw [update_of_ne hb]
      exact h
  · exact h

theorem Sound.writeMultipleSymbols (h : Sound trees c) {items}
    (hguard : ∀ item ∈ items, ∀ b, Overlaps trees item.key b → b ≠ item.key → (c.cells b).value = []) :
    Sound trees (writeMultipleSymbols go datatypes items c) := by
  induction items generalizing c with
  | nil => exact h
  | cons item items ih =>
    apply ih (h.writeToSymbol item (hguard item (mem_cons_self ..)))
    intro item' hitem' b hover hb
    exact writeToSymbol_empty (hguard item' (mem_cons_of_mem item hitem') b hover hb)

theorem Sound.step (h : Sound trees c) {a} (hguard : Uncached trees c a)
    (hs : exec go datatypes minUpdateInterval c a = some c') : Sound trees c' := by
  cases a with
  | readFromSymbol now item =>
    cases hs
    exact h.readFromSymbol now item
  | readMultipleSymbols items =>
    cases hs
    exact h.refreshed (refreshed_readMultipleSymbols items c)
  | writeToSymbol item =>
    cases hs
    exact h.writeToSymbol item (hguard item.key (mem_singleton.2 rfl))
  | writeMultipleSymbols =>
    cases hs
    exact h.writeMultipleSymbols fun item hitem => hguard item.key (mem_map_of_mem hitem)

theorem sound_start (trees : List Symbol) (value : String → Text) (time : String → Int) :
    Sound trees (start value time) := by
  constructor
  · intro b _ a i _ hi
    cases hi
  · intro i j a b v d hi
    cases hi

/-- **Every run that writes only what nothing else has cached reads its own writes.** -/
theorem reads_own_writes {value : String → Text} {time : String → Int}
    (h : Run (exec go datatypes minUpdateInterval) (Uncached trees) (start value time) c) :
    ReadsOwnWrites trees c.log := by
  have hsound : Sound trees c := h.invariant (sound_start trees value time) fun _ _ _ hx hguard hs =>
    hx.step hguard hs
  exact hsound.log

end Calls

namespace Example

def level : Symbol :=
  .mk { key := "level", name := "level", fullName := "tank.level", dataType := "USINT", offset := 0
        length := 1 } []

/-- A struct with one member. -/
def tank : Symbol :=
  .mk { key := "tank", name := "tank", fullName := "tank", dataType := "ST_TANK",
        offset := 0, length := 1 } [level]

def noTypes : DataTypes := fun _ => none

/-- 50 ms. -/
def interval : String → Int := fun _ => 50000000

def read (s : Symbol) (now : Int) (byte : UInt8) : Act := .readFromSymbol now ⟨s, fun _ => now, some [byte]⟩

def writeLevel : Act := .writeToSymbol ⟨level, lit "1", true⟩

def empty : Cache := start (fun _ => []) fun _ => 0

/-- The member has been read as 0. -/
def cached : Cache := start (fun key => if key = "tank.level" then lit "0" else []) fun _ => 0

/-- The member is written and read. -/
def written : Cache :=
  readFromSymbol JsonText.go noTypes interval 1000 ⟨level, fun _ => 1000, some [1]⟩
    (writeToSymbol JsonText.go noTypes ⟨level, lit "1", true⟩ cached)

/-- The struct is read while the PLC has 0, the member is written, and the struct is read again 1 ms later. -/
def stale : Cache :=
  readFromSymbol JsonText.go noTypes interval 1001000 ⟨tank, fun _ => 1001000, some [1]⟩
    (writeToSymbol JsonText.go noTypes ⟨level, lit "1", true⟩
      (readFromSymbol JsonText.go noTypes interval 1000 ⟨tank, fun _ => 1000, some [0]⟩ empty))

end Example

open OwnWrites.Example

theorem reads_own_writes_member :
    written.log = [.wrote "tank.level", .read "tank.level" (lit "1") 1] ∧
      ReadsOwnWrites [tank] written.log := by
  have hwrite : Run (exec JsonText.go noTypes interval) (Uncached [tank]) cached
      (writeToSymbol JsonText.go noTypes ⟨level, lit "1", true⟩ cached) := by
    refine .snoc writeLevel .refl (fun key hkey b _ hb => if_neg ?_) rfl
    rw [mem_singleton.1 hkey] at hb
    exact hb
  have hread : Run (exec JsonText.go noTypes interval) (Uncached [tank]) cached written := by
    refine .snoc (read level 1000 1) hwrite ?_ rfl
    -- a read writes nothing
    intro key hkey
    cases hkey
  exact ⟨rfl, reads_own_writes hread⟩

/-- The second read of the struct returns the value of the first one, decoded before the write. -/
theorem struct_read_before_write :
    Run (exec JsonText.go noTypes interval) anyStep empty stale ∧ ¬ReadsOwnWrites [tank] stale.log := by
  constructor
  · exact .snoc (read tank 1001000 1)
      (.snoc writeLevel (.snoc (read tank 1000 0) .refl trivial rfl) trivial rfl) trivial rfl
  intro h
  have hwrote : stale.log[1]? = some (.wrote "tank.level") := rfl
  have hread : ∃ value, stale.log[2]? = some (.read "tank" value 0) := ⟨_, rfl⟩
  obtain ⟨value, hread⟩ := hread
  have hover : Overlaps [tank] "tank.level" "tank" := by
    refine ⟨tank, mem_singleton.2 rfl, tank, .self _, .inr ⟨rfl, ?_⟩⟩
    exact .member (mem_singleton.2 rfl) (.here rfl)
  exact absurd (h 1 2 _ _ value 0 hwrote hread (by decide) hover) (by decide)

end GoAds.Codec.OwnWrites
