import GoAds.Symbols.System

/-!
# `Symbols.Steps` — the steps on the symbol cache, read backwards

For each function of `Symbols.System` a relation with one rule per branch, and the lemma that a step of
the function is by one of the rules.
-/

namespace GoAds.Symbols

open Interleaving

variable {Key Layout Types : Type} [DecidableEq Key]

inductive GetStep (c : Cache Key Layout Types) :
    Pc Key Layout Types → Act Key Layout Types → Pc Key Layout Types → Effect Key Layout Types → Prop
  | hit (n : Key) (k : Caller Key Layout Types) (id : SymId) (he : c.entry n = some id)
      (hh : (c.heap id).handle ≠ 0) : GetStep c (.lookup n k) .next (k.got n id) .none
  | needHandle (n : Key) (k : Caller Key Layout Types) (id : SymId) (he : c.entry n = some id)
      (hh : (c.heap id).handle = 0) : GetStep c (.lookup n k) .next (.handleRpc n id k) .none
  | miss (n : Key) (k : Caller Key Layout Types) (he : c.entry n = none) :
      GetStep c (.lookup n k) .next (.infoRpc n k) .none
  | handle (n : Key) (id : SymId) (k : Caller Key Layout Types) (h : UInt32) :
      GetStep c (.handleRpc n id k) (.handle h) (.setHandle n id h k) .none
  | handleFail (n : Key) (id : SymId) (k : Caller Key Layout Types) :
      GetStep c (.handleRpc n id k) .fail k.failed .none
  | swapped (n : Key) (id : SymId) (h : UInt32) (k : Caller Key Layout Types)
      (he : c.entry n ≠ some id) : GetStep c (.setHandle n id h k) .next k.failed .none
  | duplicate (n : Key) (id : SymId) (h : UInt32) (k : Caller Key Layout Types)
      (he : c.entry n = some id) (hh : (c.heap id).handle ≠ 0) :
      GetStep c (.setHandle n id h k) .next (k.got n id) .none
  | setHandle (n : Key) (id : SymId) (h : UInt32) (k : Caller Key Layout Types)
      (he : c.entry n = some id) (hh : (c.heap id).handle = 0) :
      GetStep c (.setHandle n id h k) .next (k.got n id) (.setHandle id h)
  | info (n : Key) (k : Caller Key Layout Types) (d : Desc Layout) :
      GetStep c (.infoRpc n k) (.info d) (.onDemandRpc n d c.stamp k) .none
  | infoFail (n : Key) (k : Caller Key Layout Types) : GetStep c (.infoRpc n k) .fail k.failed .none
  | answer (n : Key) (d : Desc Layout) (info : Stamp) (k : Caller Key Layout Types) (h : UInt32) :
      GetStep c (.onDemandRpc n d info k) (.handle h) (.insert n d h info c.stamp k) .none
  | answerFail (n : Key) (d : Desc Layout) (info : Stamp) (k : Caller Key Layout Types) :
      GetStep c (.onDemandRpc n d info k) .fail k.failed .none
  | existing (n : Key) (d : Desc Layout) (h : UInt32) (info ans : Stamp) (k : Caller Key Layout Types)
      (id : SymId) (he : c.entry n = some id) :
      GetStep c (.insert n d h info ans k) .next (k.got n id) .none
  | insert (n : Key) (d : Desc Layout) (h : UInt32) (info ans : Stamp) (k : Caller Key Layout Types)
      (he : c.entry n = none) :
      GetStep c (.insert n d h info ans k) .next (k.got n c.next) (.insert n d h)

inductive ReadStep (parse : Parse Layout Types) (c : Cache Key Layout Types) :
    Pc Key Layout Types → Act Key Layout Types → Pc Key Layout Types → Effect Key Layout Types → Prop
  | cached (n : Key) (id : SymId) (gen r : Nat) (fresh : Bool) :
      ReadStep parse c (.snapshot n id gen r) (.fresh fresh) .idle .none
  | request (n : Key) (id : SymId) (gen r : Nat) (fresh : Bool) :
      ReadStep parse c (.snapshot n id gen r) (.fresh fresh)
        (.readRpc (c.item n id (groupSymbolValueByHandle, (c.heap id).handle)) gen r) .none
  | invalidSize (item : Item Key Layout Types) (gen r : Nat) (bytes : Option (List UInt8)) :
      ReadStep parse c (.readRpc item gen r) (.data bytes) .idle .none
  | data (item : Item Key Layout Types) (gen r : Nat) (bytes : Option (List UInt8)) (bs : List UInt8) :
      ReadStep parse c (.readRpc item gen r) (.data bytes) (.readDecode item bs) .none
  | retry (item : Item Key Layout Types) (gen r gen' r' : Nat) :
      ReadStep parse c (.readRpc item gen r) .fail (.lookup item.name (.read gen' r')) .none
  | failed (item : Item Key Layout Types) (gen r : Nat) :
      ReadStep parse c (.readRpc item gen r) .fail .idle .none
  | decoded (item : Item Key Layout Types) (bytes : List UInt8) (v : String)
      (hv : (c.heap item.id).desc.decode parse item.types bytes = some v) :
      ReadStep parse c (.readDecode item bytes) .next .idle
        (.store [(item.id, ⟨v, bytes, item.desc, item.types⟩)])
  | unparsable (item : Item Key Layout Types) (bytes : List UInt8) :
      ReadStep parse c (.readDecode item bytes) .next .idle .none

/-- ReadMultipleSymbols and WriteMultipleSymbols. -/
inductive BatchStep (parse : Parse Layout Types) (c : Cache Key Layout Types) :
    Pc Key Layout Types → Act Key Layout Types → Pc Key Layout Types → Effect Key Layout Types → Prop
  | serialized (n : Key) (id : SymId) (b : Batch Key Layout Types) :
      BatchStep parse c (.serialize n id b) .next (.select n id b) .none
  | unserializable (n : Key) (id : SymId) (b : Batch Key Layout Types) :
      BatchStep parse c (.serialize n id b) .fail b.go .none
  | select (n : Key) (id : SymId) (b : Batch Key Layout Types) :
      BatchStep parse c (.select n id b) .next
        (Batch.go { b with items := b.items ++ [c.item n id (c.heap id).sumAddress] }) .none
  | results (b : Batch Key Layout Types) (rs : List (UInt32 × List UInt8)) :
      BatchStep parse c (.sumRpc b) (.results rs) (.sumDone b rs) .none
  | retry (b : Batch Key Layout Types) (gen r : Nat) :
      BatchStep parse c (.sumRpc b) .fail (Batch.start b.write b.names gen r).go .none
  | failed (b : Batch Key Layout Types) : BatchStep parse c (.sumRpc b) .fail .idle .none
  | wrote (b : Batch Key Layout Types) (rs : List (UInt32 × List UInt8)) (hw : b.write = true) :
      BatchStep parse c (.sumDone b rs) .next .idle (.drop (c.written b rs))
  | read (b : Batch Key Layout Types) (rs : List (UInt32 × List UInt8)) (hw : b.write = false) :
      BatchStep parse c (.sumDone b rs) .next .idle
        (.store ((c.decodeItems parse b rs).map Prod.snd))

inductive IdleStep (parse : Parse Layout Types) (c : Cache Key Layout Types) :
    Act Key Layout Types → Pc Key Layout Types → Effect Key Layout Types → Prop
  | getSymbol (n : Key) : IdleStep parse c (.getSymbol n) (.lookup n .alone) .none
  | readFromSymbol (n : Key) (gen r : Nat) :
      IdleStep parse c (.readFromSymbol n) (.lookup n (.read gen r)) .none
  | readMultipleSymbols (names : List Key) (gen r : Nat) :
      IdleStep parse c (.readMultipleSymbols names) (Batch.start false names gen r).go .none
  | writeMultipleSymbols (names : List Key) (gen r : Nat) :
      IdleStep parse c (.writeMultipleSymbols names) (Batch.start true names gen r).go .none
  | swap (zeroed : Bool) (types : Option Types) (table : List (Key × Desc Layout)) :
      IdleStep parse c (.swap zeroed types table) .idle (.swap zeroed types table)
  | expand (types : Types) (layouts : List (Key × Layout)) (added : List (Key × Desc Layout)) :
      IdleStep parse c (.expand types layouts added) .idle (.expand types layouts added)
  | zero (values : Bool) : IdleStep parse c (.zero values) .idle (.zero values)
  | bump : IdleStep parse c .bump .idle .bump
  | reconnect : IdleStep parse c .reconnect .idle .reconnect
  | sample (n : Key) (bytes : List UInt8) (id : SymId) (v : String) (he : c.entry n = some id)
      (hv : (c.heap id).desc.decode parse c.datatypes bytes = some v) :
      IdleStep parse c (.sample n bytes) .idle
        (.store [(id, ⟨v, bytes, (c.heap id).desc, c.datatypes⟩)])
  | ignored (n : Key) (bytes : List UInt8) : IdleStep parse c (.sample n bytes) .idle .none

inductive PlanStep (parse : Parse Layout Types) (c : Cache Key Layout Types) :
    Pc Key Layout Types → Act Key Layout Types → Pc Key Layout Types → Effect Key Layout Types → Prop
  | get {pc : Pc Key Layout Types} {a : Act Key Layout Types} {pc' : Pc Key Layout Types}
      {e : Effect Key Layout Types} (h : GetStep c pc a pc' e) : PlanStep parse c pc a pc' e
  | read {pc : Pc Key Layout Types} {a : Act Key Layout Types} {pc' : Pc Key Layout Types}
      {e : Effect Key Layout Types} (h : ReadStep parse c pc a pc' e) : PlanStep parse c pc a pc' e
  | batch {pc : Pc Key Layout Types} {a : Act Key Layout Types} {pc' : Pc Key Layout Types}
      {e : Effect Key Layout Types} (h : BatchStep parse c pc a pc' e) : PlanStep parse c pc a pc' e
  | idle {a : Act Key Layout Types} {pc' : Pc Key Layout Types} {e : Effect Key Layout Types}
      (h : IdleStep parse c a pc' e) : PlanStep parse c .idle a pc' e

variable {parse : Parse Layout Types} {c : Cache Key Layout Types} {pc pc' : Pc Key Layout Types}
  {a : Act Key Layout Types} {e : Effect Key Layout Types}

theorem getStep_cases (h : getStep c pc a = some (pc', e)) : GetStep c pc a pc' e := by
  unfold getStep at h
  split at h
  · split at h
    · next id he =>
      split at h <;> cases h
      · next hh => exact .needHandle _ _ id he hh
      · next hh => exact .hit _ _ id he hh
    next he =>
    cases h
    exact .miss _ _ he
  · cases h
    exact .handle _ _ _ _
  · cases h
    exact .handleFail _ _ _
  · split at h
    · next he =>
      cases h
      exact .swapped _ _ _ _ he
    next he =>
    have he := not_not.1 he
    split at h <;> cases h
    · next hh => exact .duplicate _ _ _ _ he hh
    · next hh => exact .setHandle _ _ _ _ he (not_not.1 hh)
  · cases h
    exact .info _ _ _
  · cases h
    exact .infoFail _ _
  · cases h
    exact .answer _ _ _ _ _
  · cases h
    exact .answerFail _ _ _ _
  · split at h <;> cases h
    · next id he => exact .existing _ _ _ _ _ _ id he
    · next he => exact .insert _ _ _ _ _ _ he
  · cases h

omit [DecidableEq Key] in
theorem readStep_cases (h : readStep parse c pc a = some (pc', e)) : ReadStep parse c pc a pc' e := by
  unfold readStep at h
  split at h
  · split at h
    · split at h <;> cases h
      · exact .cached _ _ _ _ _
      · exact .request _ _ _ _ _
    · cases h
      exact .request _ _ _ _ _
  · split at h
    · split at h <;> cases h
      · exact .invalidSize _ _ _ _
      · exact .data _ _ _ _ _
    · cases h
      exact .data _ _ _ _ _
  · split at h <;> cases h
    · exact .retry _ _ _ _ _
    · exact .failed _ _ _
  · split at h <;> cases h
    · next v hv => exact .decoded _ _ v hv
    · exact .unparsable _ _
  · cases h

theorem batchStep_cases (h : batchStep parse c pc a = some (pc', e)) : BatchStep parse c pc a pc' e := by
  unfold batchStep at h
  split at h
  · cases h
    exact .serialized _ _ _
  · cases h
    exact .unserializable _ _ _
  · cases h
    exact .select _ _ _
  · cases h
    exact .results _ _
  · split at h <;> cases h
    · exact .retry _ _ _
    · exact .failed _
  · split at h <;> cases h
    · next hw => exact .wrote _ _ hw
    · next hw => exact .read _ _ (by simpa using hw)
  · cases h

theorem idleStep_cases (h : idleStep parse c a = some (pc', e)) : IdleStep parse c a pc' e := by
  unfold idleStep at h
  split at h
  · cases h
    exact .getSymbol _
  · cases h
    exact .readFromSymbol _ _ _
  · cases h
    exact .readMultipleSymbols _ _ _
  · cases h
    exact .writeMultipleSymbols _ _ _
  · cases h
    exact .swap _ _ _
  · cases h
    exact .expand _ _ _
  · cases h
    exact .zero _
  · cases h
    exact .bump
  · cases h
    exact .reconnect
  · split at h
    · next id he =>
      split at h <;> cases h
      · next v hv => exact .sample _ _ id v he hv
      · exact .ignored _ _
    · cases h
      exact .ignored _ _
  · cases h

theorem plan_cases (h : plan parse c pc a = some (pc', e)) : PlanStep parse c pc a pc' e := by
  unfold plan at h
  split at h
  · exact .idle (idleStep_cases h)
  all_goals first
    | exact .read (readStep_cases h)
    | exact .batch (batchStep_cases h)
    | exact .get (getStep_cases h)

/-- **One step.**  The goroutine moves as planned, and the cache changes by the planned effect. -/
theorem step_cases {s s' t} (h : step parse s (t, a) = some s') :
    ∃ pc' e, PlanStep parse s.shared (s.loc t) a pc' e ∧
      s' = ⟨e.run s.shared, Function.update s.loc t pc'⟩ := by
  obtain ⟨pc', c', ha, rfl⟩ := Conf.exec_eq_some.1 h
  simp only [act, Option.map_eq_some_iff, Prod.exists, Prod.mk.injEq] at ha
  obtain ⟨pc', e, hp, rfl, rfl⟩ := ha
  exact ⟨pc', e, plan_cases hp, rfl⟩

/-! ## Which steps have which effects -/

theorem PlanStep.insert_fresh (hs : PlanStep parse c pc a pc' e) (key : Key) (d : Desc Layout)
    (h : UInt32) (he : e = .insert key d h) : c.entry key = none := by
  subst he
  cases hs with
  | get hs =>
    cases hs with
    | insert _ _ _ _ _ _ he => exact he
  | read hs | batch hs | idle hs => cases hs

theorem PlanStep.setHandle_zero {id h} (hs : PlanStep parse c pc a pc' (.setHandle id h)) :
    (c.heap id).handle = 0 := by
  cases hs with
  | get hs =>
    cases hs with
    | setHandle _ _ _ _ _ hh => exact hh
  | read hs | batch hs | idle hs => cases hs

theorem PlanStep.swap_label {zeroed types table}
    (hs : PlanStep parse c pc a pc' (.swap zeroed types table)) : a = .swap zeroed types table := by
  cases hs with
  | idle hs =>
    cases hs
    rfl
  | get hs | read hs | batch hs => cases hs

theorem PlanStep.expand_label {types layouts added}
    (hs : PlanStep parse c pc a pc' (.expand types layouts added)) :
    a = .expand types layouts added := by
  cases hs with
  | idle hs =>
    cases hs
    rfl
  | get hs | read hs | batch hs => cases hs

end GoAds.Symbols
