import GoAds.Client.Sum

/-!
# `Client.Batch` — `ReadMultipleSymbols` and `WriteMultipleSymbols`

Names are resolved to addresses, one sum command carries them all, and its results are turned into a map
and, where anything failed, a `BatchError` that names it.  What the rest of the session does in between is
a parameter: how names resolve, what the live cache decodes with, and whether a reconnect happened.
-/

namespace GoAds.Client

/-- Why the library itself has no value for an item (`BatchItemError.Skipped`). -/
inductive BatchSkip
  | symbolUnresolved (err : Err)
  | valueUnserializable (err : Err)
  | valueUnparsable (err : Err)
  | symbolVanished
  | noResult
  deriving DecidableEq, Repr

variable {Name Value : Type}

/-- `BatchItemError`: `error` is the PLC's code, meaningful only where `skipped` is nil. -/
structure BatchItemError (Name : Type) where
  symbol : Name
  error : ReturnCode := ReturnCode.noErrors
  skipped : Option BatchSkip := none
  deriving DecidableEq, Repr

structure BatchError (Name : Type) where
  op : String
  requested : Nat
  succeeded : Nat
  items : List (BatchItemError Name)
  deriving DecidableEq, Repr

/-- The errors of the two calls: a `BatchError`, or any other. -/
inductive BatchFailure (Name : Type)
  | batch (e : BatchError Name)
  | failed (e : Err)
  deriving DecidableEq, Repr

def newBatchError (op : String) (requested succeeded : Nat) (items : List (BatchItemError Name)) :
    Option (BatchFailure Name) :=
  if items.isEmpty then none
  else some (.batch { op := op, requested := requested, succeeded := succeeded, items := items })

/-- The loop that builds the requests: what resolves, under its name, and what does not. -/
def resolveNames {Entry Req : Type} (name : Entry → Name) (resolve : Entry → Except BatchSkip Req) :
    List Entry → List (Name × Req) × List (BatchItemError Name)
  | [] => ([], [])
  | x :: xs =>
    let rest := resolveNames name resolve xs
    match resolve x with
    | .error s => (rest.1, { symbol := name x, skipped := some s } :: rest.2)
    | .ok q => ((name x, q) :: rest.1, rest.2)

/-- The items behind the last result. -/
def noResults {Req : Type} (infos : List (Name × Req)) : List (BatchItemError Name) :=
  infos.map fun info => { symbol := info.1, skipped := some .noResult }

/-- The retries of either call: an attempt whose sum command failed is repeated if a reconnect happened
    meanwhile, as often as `retriesLeft` allows. -/
def retry {Map : Type} [EmptyCollection Map] (op : String) (epochChanged : Nat → Bool)
    (attempt : Nat → Except Err (Map × Option (BatchFailure Name))) : Nat → Map × Option (BatchFailure Name)
  | 0 =>
    match attempt 0 with
    | .ok r => r
    | .error e => (∅, some (.failed (.wrap ("batch " ++ op ++ " failed") e)))
  | k + 1 =>
    match attempt (k + 1) with
    | .ok r => r
    | .error e =>
      -- the addresses were those of the connection before
      if epochChanged (k + 1) then retry op epochChanged attempt k
      else (∅, some (.failed (.wrap ("batch " ++ op ++ " failed") e)))

/-- What is returned, unless it is the failure of a sum command, is what one of the attempts returned. -/
theorem retry_returned {Map : Type} [EmptyCollection Map] {op} {epochChanged : Nat → Bool}
    {attempt : Nat → Except Err (Map × Option (BatchFailure Name))} {n}
    (h : ∀ e, (retry op epochChanged attempt n).2 ≠ some (.failed e)) :
    ∃ k ≤ n, attempt k = .ok (retry op epochChanged attempt n) := by
  induction n with
  | zero =>
    rw [retry] at h ⊢
    split at h
    · next r heq => exact ⟨0, Nat.le_refl 0, heq⟩
    · exact absurd rfl (h _)
  | succ n ih =>
    rw [retry] at h ⊢
    split at h
    · next r heq => exact ⟨n + 1, Nat.le_refl _, heq⟩
    split at h
    · next hchanged =>
      rw [if_pos hchanged]
      obtain ⟨k, hk, hm⟩ := ih h
      exact ⟨k, Nat.le_succ_of_le hk, hm⟩
    · exact absurd rfl (h _)

theorem newBatchError_items {op : String} {requested succeeded : Nat}
    {items : List (BatchItemError Name)} {e : BatchError Name}
    (h : newBatchError op requested succeeded items = some (.batch e)) : e.items = items := by
  unfold newBatchError at h
  split at h
  · cases h
  · obtain rfl := BatchFailure.batch.inj (Option.some.inj h)
    rfl

section Read

/-- The session as `ReadMultipleSymbols` meets it, by the retries left: the client it loads, the address
    and length of a name, whether the epoch changed, and what the live entry of a name decodes to. -/
structure ReadSession (Name Value : Type) where
  net : Nat → Net
  conn : Nat → Conn
  getSymbol : Nat → Name → Except Err SumReadRequest
  epochChanged : Nat → Bool
  live : Nat → Name → Option (Bytes → Except Err Value)

variable [DecidableEq Name]

def readLoop (live : Name → Option (Bytes → Except Err Value)) :
    List (Name × SumReadRequest) → List SumReadResult → AList (fun _ : Name => Value) →
    List (BatchItemError Name) → AList (fun _ : Name => Value) × List (BatchItemError Name)
  | [], _, values, failed => (values, failed)
  | info :: infos, [], values, failed => (values, failed ++ noResults (info :: infos))
  | info :: infos, r :: rs, values, failed =>
    if r.error ≠ ReturnCode.noErrors then
      readLoop live infos rs values (failed ++ [{ symbol := info.1, error := r.error }])
    else
      -- the value is decoded with the entry the cache has now, not with the one resolved
      match live info.1 with
      | none =>
        readLoop live infos rs values
          (failed ++ [{ symbol := info.1, skipped := some .symbolVanished }])
      | some parse =>
        match parse r.data with
        | .error e =>
          readLoop live infos rs values
            (failed ++ [{ symbol := info.1, skipped := some (.valueUnparsable e) }])
        | .ok value => readLoop live infos rs (values.insert info.1 value) failed

variable (sess : ReadSession Name Value)

def ReadSession.resolve (k : Nat) (names : List Name) :
    List (Name × SumReadRequest) × List (BatchItemError Name) :=
  resolveNames id (fun name => (sess.getSymbol k name).mapError .symbolUnresolved) names

/-- One attempt of `readMultipleSymbolsRetry`; an error is that of `SumRead`. -/
def ReadSession.attempt (k : Nat) (names : List Name) :
    Except Err (AList (fun _ : Name => Value) × Option (BatchFailure Name)) :=
  let infos := (sess.resolve k names).1
  let failed := (sess.resolve k names).2
  -- nothing resolved: nothing is sent
  if infos.isEmpty then .ok (∅, newBatchError "read" names.length 0 failed)
  else
    let o := (sumRead (sess.net k) (sess.conn k) (infos.map (·.2))).1
    match o.err with
    | some e => .error e
    | none =>
      let r := readLoop (sess.live k) infos o.results ∅ failed
      .ok (r.1, newBatchError "read" names.length r.1.keys.length r.2)

def ReadSession.readMultipleSymbolsRetry (names : List Name) (retriesLeft : Nat) :
    AList (fun _ : Name => Value) × Option (BatchFailure Name) :=
  if names.isEmpty then (∅, none)
  else retry "read" sess.epochChanged (fun k => sess.attempt k names) retriesLeft

/-- `ReadMultipleSymbols`, with a client. -/
def ReadSession.readMultipleSymbols (names : List Name) :
    AList (fun _ : Name => Value) × Option (BatchFailure Name) :=
  sess.readMultipleSymbolsRetry names 1

end Read

section Write

/-- The session as `WriteMultipleSymbols` meets it: also how a value is serialised for a symbol, and the
    order of names. -/
structure WriteSession (Name Value : Type) where
  net : Nat → Net
  conn : Nat → Conn
  getSymbol : Nat → Name → Except Err (UInt32 × UInt32)
  writeToNode : Nat → Name → Value → Except Err Bytes
  epochChanged : Nat → Bool
  nameLe : Name → Name → Bool

variable [DecidableEq Name]

/-- The loop over the results: every code is filed, and the failures are named. -/
def writeLoop : List (Name × SumWriteRequest) → List SumWriteResult →
    AList (fun _ : Name => ReturnCode) → Nat → List (BatchItemError Name) →
    AList (fun _ : Name => ReturnCode) × Nat × List (BatchItemError Name)
  | [], _, codes, succeeded, failed => (codes, succeeded, failed)
  | info :: infos, [], codes, succeeded, failed =>
    (codes, succeeded, failed ++ noResults (info :: infos))
  | info :: infos, r :: rs, codes, succeeded, failed =>
    -- the codes of failed items are in the map as well
    if r.error = ReturnCode.noErrors then
      writeLoop infos rs (codes.insert info.1 r.error) (succeeded + 1) failed
    else
      writeLoop infos rs (codes.insert info.1 r.error) succeeded
        (failed ++ [{ symbol := info.1, error := r.error }])

variable (sess : WriteSession Name Value)

def WriteSession.resolveOne (k : Nat) (entry : Name × Value) : Except BatchSkip SumWriteRequest :=
  match sess.getSymbol k entry.1 with
  | .error e => .error (.symbolUnresolved e)
  | .ok (group, offset) =>
    match sess.writeToNode k entry.1 entry.2 with
    | .error e => .error (.valueUnserializable e)
    | .ok data => .ok { group := group, offset := offset, data := data }

def WriteSession.resolve (k : Nat) (values : List (Name × Value)) :
    List (Name × SumWriteRequest) × List (BatchItemError Name) :=
  resolveNames Prod.fst (sess.resolveOne k) values

def WriteSession.sortBatchItems (items : List (BatchItemError Name)) : List (BatchItemError Name) :=
  items.mergeSort fun a b => sess.nameLe a.symbol b.symbol

/-- One attempt of `writeMultipleSymbolsRetry`, which ranges over the map in the order of `values`. -/
def WriteSession.attempt (k : Nat) (values : List (Name × Value)) :
    Except Err (AList (fun _ : Name => ReturnCode) × Option (BatchFailure Name)) :=
  let infos := (sess.resolve k values).1
  let failed := (sess.resolve k values).2
  if infos.isEmpty then
    .ok (∅, newBatchError "write" values.length 0 (sess.sortBatchItems failed))
  else
    let o := (sumWrite (sess.net k) (sess.conn k) (infos.map (·.2))).1
    match o.err with
    | some e => .error e
    | none =>
      let r := writeLoop infos o.results ∅ 0 failed
      .ok (r.1, newBatchError "write" values.length r.2.1 (sess.sortBatchItems r.2.2))

def WriteSession.writeMultipleSymbolsRetry (values : List (Name × Value)) (retriesLeft : Nat) :
    AList (fun _ : Name => ReturnCode) × Option (BatchFailure Name) :=
  if values.isEmpty then (∅, none)
  else retry "write" sess.epochChanged (fun k => sess.attempt k values) retriesLeft

/-- `WriteMultipleSymbols`, with a client. -/
def WriteSession.writeMultipleSymbols (values : List (Name × Value)) :
    AList (fun _ : Name => ReturnCode) × Option (BatchFailure Name) :=
  sess.writeMultipleSymbolsRetry values 1

end Write

end GoAds.Client
